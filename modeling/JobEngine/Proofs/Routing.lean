import Mathlib.Data.List.Induction
import JobEngine.Proofs.Listing
import JobEngine.Scheduler.Registry
/-! Routing is well defined. A kind goes to the handler registered for it, else to the one of the
longest category that it lies in, else to the one for everything. The categories that a kind lies in
are nested, so no two of them are equally long, and it does not matter in which order the patterns
were registered or are kept. -/

namespace JobEngine

theorem Assoc.get?_perm {α : Type u} {β : Type v} [DecidableEq α] {m order : Assoc α β}
    (distinct : m.keys.Nodup) (horder : order.Perm m) : order.get? = m.get? := by
  have hdistinct : order.keys.Nodup := (horder.map Prod.fst).nodup_iff.mpr distinct
  funext a
  apply Option.ext
  intro b
  constructor
  · intro hb
    exact get?_of_mem distinct (horder.mem_iff.mp (mem_of_get? hb))
  · intro hb
    exact get?_of_mem hdistinct (horder.mem_iff.mpr (mem_of_get? hb))

namespace Registry

variable {η : Type} {kind category other : String}

def everyKindOf (category : String) : String := category ++ ".*"

def LiesIn (kind category : String) : Prop := ∃ rest, kind = category ++ "." ++ rest

theorem liesIn_iff : LiesIn kind category ↔ category.toList ++ ['.'] <+: kind.toList := by
  constructor
  · rintro ⟨rest, rfl⟩
    exact ⟨rest.toList, by simp⟩
  · rintro ⟨rest, hrest⟩
    refine ⟨String.ofList rest, String.toList_inj.mp ?_⟩
    simp [← hrest]

theorem LiesIn.nested (h : LiesIn kind category) (h' : LiesIn kind other)
    (hle : category.length ≤ other.length) : ∃ rest, other = category ++ rest := by
  have hcategory : category.toList <+: kind.toList :=
    (List.prefix_append _ _).trans (liesIn_iff.mp h)
  have hother : other.toList <+: kind.toList := (List.prefix_append _ _).trans (liesIn_iff.mp h')
  obtain ⟨rest, hrest⟩ : category.toList <+: other.toList :=
    List.prefix_of_prefix_length_le hcategory hother (by
      rw [String.length_toList, String.length_toList]
      exact hle)
  exact ⟨String.ofList rest, String.toList_inj.mp (by simp [hrest])⟩

theorem LiesIn.untied (h : LiesIn kind category) (h' : LiesIn kind other)
    (hlength : category.length = other.length) : category = other := by
  obtain ⟨rest, rfl⟩ := h.nested h' (Nat.le_of_eq hlength)
  have hrest : rest = "" := by
    rw [String.length_append] at hlength
    exact String.length_eq_zero_iff.mp (by omega)
  rw [hrest, String.append_empty]

/-- Where a kind goes when handlers are found for patterns in this way. -/
inductive Routed (find : String → Option η) (kind : String) : Option η → Prop where
  | exact {handler : η} (found : find kind = some handler) : Routed find kind (some handler)
  | category {category : String} {handler : η} (inexact : find kind = none)
      (found : find (everyKindOf category) = some handler) (lies : LiesIn kind category)
      (longest : ∀ c, LiesIn kind c → (find (everyKindOf c)).isSome →
        c = category ∨ c.length < category.length) : Routed find kind (some handler)
  | rest (inexact : find kind = none)
      (outside : ∀ c, LiesIn kind c → find (everyKindOf c) = none) : Routed find kind (find "*")

theorem Routed.unique {find : String → Option η} {answer answer' : Option η}
    (h : Routed find kind answer) (h' : Routed find kind answer') : answer = answer' := by
  cases h with
  | exact found =>
    cases h' with
    | exact found' => exact found.symm.trans found'
    | category inexact | rest inexact => cases found.symm.trans inexact
  | @category category handler inexact found lies longest =>
    cases h' with
    | exact found' => cases found'.symm.trans inexact
    | @category category' handler' _ found' lies' longest' =>
      -- each is one of the longest, so either they are equal or each is longer than the other
      have hsame : category' = category := by
        obtain hsame | hlt := longest category' lies' (by rw [found']; rfl)
        · exact hsame
        · obtain hsame | hlt' := longest' category lies (by rw [found]; rfl)
          · exact hsame.symm
          · omega
      rw [hsame] at found'
      exact found.symm.trans found'
    | rest _ outside => cases found.symm.trans (outside category lies)
  | rest inexact outside =>
    cases h' with
    | exact found' => cases found'.symm.trans inexact
    | @category category' _ _ found' lies' _ => cases found'.symm.trans (outside category' lies')
    | rest => rfl

/-! The search through the registered patterns. -/

theorem category?_eq_some_iff {pattern : String} {cs : List Char} :
    category? pattern = some cs ↔ pattern = everyKindOf (String.ofList cs) := by
  have hpattern : pattern = everyKindOf (String.ofList cs) ↔
      pattern.toList.reverse = '*' :: '.' :: cs.reverse := by
    rw [← String.toList_inj, ← List.reverse_inj]
    unfold everyKindOf
    simp
  rw [hpattern]
  unfold category?
  split
  next rest hrest =>
    rw [hrest]
    simp [List.reverse_eq_iff]
  next hother =>
    refine ⟨nofun, fun h => ?_⟩
    exact absurd h (hother _)

theorem categoryLength?_eq_some_iff {pattern : String} {n : Nat} :
    categoryLength? kind pattern = some n ↔
      ∃ category, pattern = everyKindOf category ∧ LiesIn kind category ∧ category.length = n := by
  unfold categoryLength?
  rw [Option.bind_eq_some_iff]
  constructor
  · rintro ⟨cs, hcs, hlength⟩
    rw [Option.ite_none_right_eq_some, List.isPrefixOf_iff_prefix] at hlength
    refine ⟨String.ofList cs, category?_eq_some_iff.mp hcs, liesIn_iff.mpr ?_, ?_⟩
    · simpa using hlength.1
    · simpa using hlength.2
  · rintro ⟨category, rfl, hlies, rfl⟩
    refine ⟨category.toList, category?_eq_some_iff.mpr (by simp), ?_⟩
    rw [Option.ite_none_right_eq_some, List.isPrefixOf_iff_prefix]
    exact ⟨liesIn_iff.mp hlies, congrArg some String.length_toList⟩

def longer (old new : Nat × η) : Nat × η := if old.1 ≤ new.1 then new else old

private theorem better_some (old new : Nat × η) : better (some old) new = some (longer old new) :=
  (apply_ite some (old.1 ≤ new.1) new old).symm

private theorem foldl_better (first : Nat × η) (rest : List (Nat × η)) :
    rest.foldl better (some first) = some (rest.foldl longer first) := by
  induction rest generalizing first with
  | nil => rfl
  | cons next rest ih =>
    rw [List.foldl_cons, better_some, ih]
    rfl

theorem foldl_longer (first : Nat × η) (rest : List (Nat × η)) :
    rest.foldl longer first ∈ first :: rest ∧
      ∀ x ∈ first :: rest, x.1 ≤ (rest.foldl longer first).1 := by
  induction rest generalizing first with
  | nil => simp
  | cons next rest ih =>
    obtain ⟨hmem, hmax⟩ := ih (longer first next)
    obtain ⟨hlonger, hrest⟩ := List.forall_mem_cons.mp hmax
    rw [List.foldl_cons]
    have hchosen : longer first next = first ∨ longer first next = next := by
      unfold longer
      split <;> simp
    have hle : first.1 ≤ (longer first next).1 ∧ next.1 ≤ (longer first next).1 := by
      unfold longer
      split <;> omega
    constructor
    · rcases List.mem_cons.mp hmem with heq | hmem
      · rw [heq]
        rcases hchosen with h | h <;> simp [h]
      · exact List.mem_cons_of_mem _ (List.mem_cons_of_mem _ hmem)
    · refine List.forall_mem_cons.mpr ⟨Nat.le_trans hle.1 hlonger, ?_⟩
      exact List.forall_mem_cons.mpr ⟨Nat.le_trans hle.2 hlonger, hrest⟩

private theorem search_cases (found : List (Nat × η)) :
    (found.foldl better none = none ∧ found = []) ∨
      ∃ best, found.foldl better none = some best ∧ best ∈ found ∧ ∀ x ∈ found, x.1 ≤ best.1 := by
  cases found with
  | nil => exact .inl ⟨rfl, rfl⟩
  | cons first rest => exact .inr ⟨_, foldl_better first rest, foldl_longer first rest⟩

def candidates (r : Registry η) (kind : String) : List (Nat × η) :=
  r.filterMap fun e => (categoryLength? kind e.1).map (·, e.2)

private theorem byCategory_eq (r : Registry η) (kind : String) :
    r.byCategory kind = ((r.candidates kind).foldl better none).map (·.2) := by
  unfold byCategory candidates
  rw [List.foldl_filterMap]
  refine congrArg (fun step => (r.foldl step none).map Prod.snd) ?_
  funext best e
  cases categoryLength? kind e.1 <;> rfl

theorem mem_candidates {r : Registry η} (distinct : r.keys.Nodup) {n : Nat} {handler : η} :
    (n, handler) ∈ r.candidates kind ↔ ∃ category, LiesIn kind category ∧ category.length = n ∧
      r.get? (everyKindOf category) = some handler := by
  unfold candidates
  rw [List.mem_filterMap]
  constructor
  · rintro ⟨⟨pattern, found⟩, he, hfound⟩
    obtain ⟨m, hm, heq⟩ := Option.map_eq_some_iff.mp hfound
    cases heq
    obtain ⟨category, rfl, hlies, hlength⟩ := categoryLength?_eq_some_iff.mp hm
    exact ⟨category, hlies, hlength, Assoc.get?_of_mem distinct he⟩
  · rintro ⟨category, hlies, hlength, hfound⟩
    refine ⟨_, Assoc.mem_of_get? hfound, ?_⟩
    rw [categoryLength?_eq_some_iff.mpr ⟨category, rfl, hlies, hlength⟩]
    rfl

theorem resolve_routed {r : Registry η} (distinct : r.keys.Nodup) (kind : String) :
    Routed r.get? kind (r.resolve kind) := by
  unfold resolve
  cases hexact : r.get? kind with
  | some handler => exact .exact hexact
  | none =>
    rw [byCategory_eq]
    obtain ⟨hnone, hnothing⟩ | ⟨best, hbest, hmem, hmax⟩ := search_cases (r.candidates kind)
    · rw [hnone]
      refine .rest hexact fun c hc => ?_
      cases hfound : r.get? (everyKindOf c) with
      | none => rfl
      | some handler =>
        have hmem := (mem_candidates distinct).mpr ⟨c, hc, rfl, hfound⟩
        rw [hnothing] at hmem
        cases hmem
    · rw [hbest]
      obtain ⟨category, hlies, hlength, hfound⟩ := (mem_candidates distinct).mp hmem
      refine .category hexact hfound hlies fun c hc hother => ?_
      obtain ⟨handler, hhandler⟩ := Option.isSome_iff_exists.mp hother
      have hle : c.length ≤ best.1 := hmax _ ((mem_candidates distinct).mpr ⟨c, hc, rfl, hhandler⟩)
      rw [← hlength] at hle
      -- the search prefers the later of two that are equally long, but there are no such two
      exact (Nat.eq_or_lt_of_le hle).imp_left (hc.untied hlies)

/-! Registering. -/

def ofRegistrations (registrations : List (String × η)) : Registry η :=
  registrations.foldl (fun r e => r.register e.1 e.2) []

def lastFor (registrations : List (String × η)) (pattern : String) : Option η :=
  ((registrations.filter (·.1 = pattern)).getLast?).map (·.2)

private theorem distinct_ofRegistrations (registrations : List (String × η)) :
    (ofRegistrations registrations).keys.Nodup := by
  unfold ofRegistrations
  induction registrations using List.reverseRecOn with
  | nil => exact List.nodup_nil
  | append_singleton front e ih =>
    rw [List.foldl_append]
    exact Assoc.nodup_put ih e.1 e.2

theorem get?_ofRegistrations (registrations : List (String × η)) :
    (ofRegistrations registrations).get? = lastFor registrations := by
  funext pattern
  unfold ofRegistrations lastFor
  induction registrations using List.reverseRecOn with
  | nil => rfl
  | append_singleton front e ih =>
    rw [List.foldl_append, List.filter_append]
    have hput := Assoc.get?_put (front.foldl (fun r e => register r e.1 e.2) []) e.1 pattern e.2
    refine hput.trans ?_
    by_cases hpattern : e.1 = pattern
    · simp [hpattern]
    · rw [if_neg hpattern, ih]
      simp [hpattern]

/-- What routing a kind has to be, after these registrations. -/
structure WellRouted (registrations : List (String × η)) (kind : String) : Prop where
  routed : ∀ answer, (ofRegistrations registrations).resolve kind = answer ↔
    Routed (lastFor registrations) kind answer
  unordered : ∀ order : Registry η, order.Perm (ofRegistrations registrations) →
    order.resolve kind = (ofRegistrations registrations).resolve kind
  interleaved : ∀ others : List (String × η),
    (∀ pattern, others.filter (·.1 = pattern) = registrations.filter (·.1 = pattern)) →
    (ofRegistrations others).resolve kind = (ofRegistrations registrations).resolve kind
  nested : ∀ c c', LiesIn kind c → LiesIn kind c' → c.length ≤ c'.length → ∃ rest, c' = c ++ rest
  untied : ∀ c c', LiesIn kind c → LiesIn kind c' → c.length = c'.length → c = c'

/-- Whatever was registered, routing is well defined. -/
theorem routing_well_defined (registrations : List (String × η)) (kind : String) :
    WellRouted registrations kind := by
  have distinct := distinct_ofRegistrations registrations
  have hroute := resolve_routed distinct kind
  refine ⟨fun answer => ?_, fun order horder => ?_, fun others hothers => ?_,
    fun _ _ h h' => h.nested h', fun _ _ h h' => h.untied h'⟩
  · rw [get?_ofRegistrations] at hroute
    exact ⟨fun h => h ▸ hroute, fun h => hroute.unique h⟩
  · have hdistinct : Assoc.keys order |>.Nodup := (horder.map Prod.fst).nodup_iff.mpr distinct
    have hother := resolve_routed hdistinct kind
    rw [Assoc.get?_perm distinct horder] at hother
    exact hother.unique hroute
  · have hother := resolve_routed (distinct_ofRegistrations others) kind
    have hsame : lastFor others = lastFor registrations := by
      funext pattern
      unfold lastFor
      rw [hothers]
    rw [get?_ofRegistrations, hsame, ← get?_ofRegistrations] at hother
    exact hother.unique hroute

/-- A dot makes the difference between lying in a category and sharing its letters. -/
example : let r := ofRegistrations [("pools.*", 1), ("*", 3), ("pools.big.*", 2), ("pools.*", 4)]
    ["pools.big.new", "pools.big", "poolside", "pools.*"].map r.resolve =
      [some 2, some 4, some 3, some 4] := by decide

end Registry

end JobEngine
