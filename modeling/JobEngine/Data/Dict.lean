/-! String-keyed maps in key order. The bindings ascend strictly by code point, so a dictionary has
one representation and two dictionaries with the same bindings are equal. -/

namespace JobEngine

private theorem string_lt_of_not_lt {a b : String} (h : ¬ a < b) (hne : a ≠ b) : b < a :=
  String.not_le.mp fun hab => hne (String.le_antisymm hab (String.not_lt.mp h))

structure Dict (β : Type u) where
  entries : List (String × β)
  ascending : entries.Pairwise fun a b => a.1 < b.1

namespace Dict

variable {β : Type u}

def empty : Dict β := ⟨[], .nil⟩

instance : Inhabited (Dict β) := ⟨empty⟩

instance [DecidableEq β] : DecidableEq (Dict β) := fun a b =>
  if h : a.entries = b.entries then isTrue (by cases a; cases b; simp_all)
  else isFalse fun hab => h (hab ▸ rfl)

/-- Writes a binding into an ascending list, in place when the key is there. -/
def place (k : String) (v : β) : List (String × β) → List (String × β)
  | [] => [(k, v)]
  | (a, w) :: rest =>
    if k < a then (k, v) :: (a, w) :: rest
    else if k = a then (k, v) :: rest
    else (a, w) :: place k v rest

theorem mem_place {k : String} {v : β} {m : List (String × β)} {e : String × β}
    (h : e ∈ place k v m) : e = (k, v) ∨ e ∈ m := by
  induction m with
  | nil => simpa [place] using h
  | cons x rest ih =>
    obtain ⟨a, w⟩ := x
    by_cases h1 : k < a
    · simpa [place, h1] using h
    · by_cases h2 : k = a
      · subst h2
        simp only [place, h1, ↓reduceIte, List.mem_cons] at h ⊢
        exact h.imp_right Or.inr
      · simp only [place, h1, h2, ↓reduceIte, List.mem_cons] at h ⊢
        rcases h with h | h
        · exact .inr (.inl h)
        · exact (ih h).imp_right Or.inr

theorem ascending_place (k : String) (v : β) {m : List (String × β)}
    (h : m.Pairwise fun a b => a.1 < b.1) : (place k v m).Pairwise fun a b => a.1 < b.1 := by
  induction m with
  | nil => simp [place]
  | cons x rest ih =>
    obtain ⟨a, w⟩ := x
    obtain ⟨hx, hrest⟩ := List.pairwise_cons.1 h
    by_cases h1 : k < a
    · simp only [place, h1, ↓reduceIte]
      refine List.pairwise_cons.2 ⟨fun e he => ?_, h⟩
      rcases List.mem_cons.1 he with rfl | he
      · exact h1
      · exact String.lt_trans h1 (hx e he)
    · by_cases h2 : k = a
      · subst h2
        simp only [place, h1, ↓reduceIte]
        exact List.pairwise_cons.2 ⟨hx, hrest⟩
      · simp only [place, h1, h2, ↓reduceIte]
        refine List.pairwise_cons.2 ⟨fun e he => ?_, ih hrest⟩
        rcases mem_place he with rfl | he
        · exact string_lt_of_not_lt h1 h2
        · exact hx e he

def insert (d : Dict β) (k : String) (v : β) : Dict β :=
  ⟨place k v d.entries, ascending_place k v d.ascending⟩

def get? (d : Dict β) (k : String) : Option β := (d.entries.find? (·.1 == k)).map (·.2)

def erase (d : Dict β) (k : String) : Dict β :=
  ⟨d.entries.filter (·.1 != k), d.ascending.filter _⟩

def has (d : Dict β) (k : String) : Bool := (d.get? k).isSome

def isEmpty (d : Dict β) : Bool := d.entries.isEmpty

def keys (d : Dict β) : List String := d.entries.map (·.1)

def ofList (bindings : List (String × β)) : Dict β :=
  bindings.foldl (fun d e => d.insert e.1 e.2) empty

theorem place_last {k : String} {m : List (String × β)} (v : β) (h : ∀ e ∈ m, e.1 < k) :
    place k v m = m ++ [(k, v)] := by
  induction m with
  | nil => rfl
  | cons e rest ih =>
    obtain ⟨a, w⟩ := e
    have ha : a < k := h _ List.mem_cons_self
    have hne : k ≠ a := fun heq => String.lt_irrefl k (heq ▸ ha)
    have hlt : ¬k < a := fun hka => String.lt_irrefl k (String.lt_trans hka ha)
    rw [place, if_neg hlt, if_neg hne,
      ih fun e he => h e (List.mem_cons_of_mem _ he), List.cons_append]

theorem entries_foldl_insert {m : List (String × β)} (d : Dict β)
    (h : (d.entries ++ m).Pairwise fun a b => a.1 < b.1) :
    (m.foldl (fun d e => d.insert e.1 e.2) d).entries = d.entries ++ m := by
  induction m generalizing d with
  | nil => rw [List.append_nil]; rfl
  | cons e rest ih =>
    have hlast : (d.insert e.1 e.2).entries = d.entries ++ [e] :=
      place_last e.2 fun a ha => (List.pairwise_append.mp h).2.2 a ha e List.mem_cons_self
    rw [List.foldl_cons, ih, hlast, List.append_assoc, List.singleton_append]
    rwa [hlast, List.append_assoc, List.singleton_append]

/-- A dictionary is made again of its bindings. -/
@[simp] theorem ofList_entries (d : Dict β) : ofList d.entries = d := by
  have hentries : (ofList d.entries).entries = d.entries := entries_foldl_insert empty d.ascending
  cases d
  cases hmade : ofList _ with
  | mk entries ascending =>
    rw [hmade] at hentries
    subst hentries
    rfl

/-- All bindings of both, where the second one wins. -/
def overlay (base upper : Dict β) : Dict β :=
  upper.entries.foldl (fun d e => d.insert e.1 e.2) base

section

variable {a k : String}

theorem find?_place (v : β) (m : List (String × β)) :
    ((place k v m).find? (·.1 == a)).map (·.2) =
      if k = a then some v else (m.find? (·.1 == a)).map (·.2) := by
  induction m with
  | nil => by_cases h : k = a <;> simp [place, h]
  | cons e rest ih =>
    obtain ⟨key, w⟩ := e
    rw [place]
    split
    · by_cases h : k = a <;> simp [h]
    · split
      next heq => by_cases h : k = a <;> simp [← heq, h]
      next hne =>
        by_cases h : key = a
        · subst h
          simp [hne]
        · simp [h, ih]

@[simp] theorem get?_insert (d : Dict β) (v : β) :
    (d.insert k v).get? a = if k = a then some v else d.get? a := find?_place v d.entries

@[simp] theorem get?_erase (d : Dict β) :
    (d.erase k).get? a = if k = a then none else d.get? a := by
  unfold get? erase
  by_cases h : k = a
  · subst h
    simp [List.find?_filter]
  · have hfind : ∀ m : List (String × β),
        (m.filter (·.1 != k)).find? (·.1 == a) = m.find? (·.1 == a) := by
      intro m
      rw [List.find?_filter]
      congr 1
      funext e
      by_cases he : e.1 = a <;> simp [he, Ne.symm h]
    simp [hfind, h]

theorem mem_keys (d : Dict β) : a ∈ d.keys ↔ (d.get? a).isSome := by
  unfold keys get?
  simp [List.find?_isSome]

theorem nodup_keys (d : Dict β) : d.keys.Nodup :=
  List.pairwise_map.mpr (d.ascending.imp fun h heq => by simp [heq] at h)

/-- Bindings that ascend are written one after the other, and none overwrites another. -/
theorem get?_foldl_insert {m : List (String × β)} (h : m.Pairwise fun a b => a.1 < b.1)
    (d : Dict β) : (m.foldl (fun d e => d.insert e.1 e.2) d).get? a =
      ((m.find? (·.1 == a)).map (·.2)).or (d.get? a) := by
  induction m generalizing d with
  | nil => rfl
  | cons e rest ih =>
    obtain ⟨hfirst, hrest⟩ := List.pairwise_cons.mp h
    rw [List.foldl_cons, ih hrest, get?_insert]
    by_cases hkey : e.1 = a
    · have hlater : rest.find? (·.1 == a) = none := by
        apply List.find?_eq_none.mpr
        intro f hf heq
        have hlt := hfirst f hf
        rw [hkey, beq_iff_eq.mp heq] at hlt
        exact String.lt_irrefl a hlt
      simp [hkey, hlater]
    · simp [hkey]

/-- A binding of the upper map hides one of the lower. -/
@[simp] theorem get?_overlay (base upper : Dict β) :
    (base.overlay upper).get? k = (upper.get? k).or (base.get? k) :=
  get?_foldl_insert upper.ascending base

end

end Dict

end JobEngine
