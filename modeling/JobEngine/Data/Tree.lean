/-! Things that lie in one another, each under a number of its own. They are kept with the newest
first, and what a thing lies in is older than it. -/

namespace JobEngine

structure Node (α : Type u) where
  number : Nat
  /-- The number of what it lies in. -/
  outer : Option Nat
  item : α

abbrev Tree (α : Type u) := List (Node α)

namespace Tree

variable {α : Type u} {β : Type v}

/-- What lies around a place, from there outwards. -/
def path : Tree α → Option Nat → Tree α
  | [], _ => []
  | node :: older, place =>
    if place = some node.number then node :: path older node.outer else path older place

def items (t : Tree α) : List α := List.map (·.item) t

def numbers (t : Tree α) : List Nat := List.map (·.number) t

def get? (t : Tree α) (number : Nat) : Option α := (t.find? (·.number == number)).map (·.item)

def modify (t : Tree α) (number : Nat) (f : α → α) : Tree α :=
  List.map (fun node => if node.number = number then { node with item := f node.item } else node) t

/-- Takes a thing out, unless something lies in it. -/
def drop (t : Tree α) (number : Nat) : Tree α :=
  if t.any (·.outer == some number) then t else t.filter (·.number != number)

/-- The same tree of other things. -/
def map (f : α → β) (t : Tree α) : Tree β :=
  List.map (fun node => ⟨node.number, node.outer, f node.item⟩) t

@[simp] theorem items_map (f : α → β) (t : Tree α) : (t.map f).items = List.map f t.items := by
  simp [items, map]

@[simp] theorem path_map (f : α → β) (t : Tree α) (place : Option Nat) :
    (t.map f).path place = (t.path place).map f := by
  induction t generalizing place with
  | nil => rfl
  | cons node older ih =>
    change path (⟨node.number, node.outer, f node.item⟩ :: map f older) place = _
    rw [path, path]
    split
    · exact congrArg _ (ih node.outer)
    · exact ih place

theorem modify_map {f : α → β} {g : α → α} {h : β → β} (hfg : ∀ a, f (g a) = h (f a)) (t : Tree α)
    (number : Nat) : (t.modify number g).map f = (t.map f).modify number h := by
  unfold modify map
  rw [List.map_map, List.map_map]
  refine List.map_congr_left fun node _ => ?_
  by_cases hn : node.number = number <;> simp [hn, hfg]

theorem map_modify {f : α → β} {g : α → α} (hfg : ∀ a, f (g a) = f a) (t : Tree α) (n : Nat) :
    (t.modify n g).map f = t.map f := by
  unfold modify map
  rw [List.map_map]
  refine List.map_congr_left fun node _ => ?_
  by_cases h : node.number = n <;> simp [h, hfg]

theorem modify_cons (node : Node α) (older : Tree α) (n : Nat) (f : α → α) :
    Tree.modify (node :: older) n f =
      (if node.number = n then { node with item := f node.item } else node) :: older.modify n f :=
  rfl

theorem modify_of_fresh {t : Tree α} {n : Nat} (h : ∀ node ∈ t, node.number ≠ n) (f : α → α) :
    t.modify n f = t := by
  unfold modify
  exact (List.map_congr_left fun node hnode => if_neg (h node hnode)).trans (List.map_id _)

@[simp] theorem drop_map (f : α → β) (t : Tree α) (number : Nat) :
    (t.drop number).map f = (t.map f).drop number := by
  have hany : (t.map f).any (·.outer == some number) = t.any (·.outer == some number) := by
    simp [map, List.any_map, Function.comp_def]
  unfold drop
  rw [hany]
  split
  · rfl
  · simp [map, List.filter_map, Function.comp_def]

@[simp] theorem path_none (t : Tree α) : t.path none = [] := by
  induction t with
  | nil => rfl
  | cons node older ih => rw [path, if_neg (by simp), ih]

theorem path_sublist (t : Tree α) (place : Option Nat) : List.Sublist (t.path place) t := by
  induction t generalizing place with
  | nil => exact .slnil
  | cons node older ih =>
    rw [path]
    split
    · exact (ih _).cons_cons node
    · exact (ih _).cons node

theorem mem_of_mem_path {t : Tree α} {place : Option Nat} {node : Node α}
    (h : node ∈ t.path place) : node ∈ t := (t.path_sublist place).subset h

@[simp] theorem numbers_map (f : α → β) (t : Tree α) : (t.map f).numbers = t.numbers := by
  simp [numbers, map]

/-- What lies around something on a path is the rest of the path. -/
theorem path_of_suffix {t : Tree α} (distinct : t.numbers.Nodup) {place : Option Nat}
    {node : Node α} {rest : Tree α} (h : List.IsSuffix (node :: rest) (t.path place)) :
    t.path (some node.number) = node :: rest := by
  induction t generalizing place with
  | nil => exact absurd (List.suffix_nil.mp h) (List.cons_ne_nil _ _)
  | cons first older ih =>
    obtain ⟨(hfirst : first.number ∉ numbers older), holder⟩ := List.nodup_cons.mp distinct
    -- Further out everything is older than the first node.
    have further : ∀ {place}, List.IsSuffix (node :: rest) (path older place) →
        path (first :: older) (some node.number) = node :: rest := by
      intro place hsuffix
      have hnode : node ∈ older := mem_of_mem_path (hsuffix.subset List.mem_cons_self)
      have hmem : node.number ∈ numbers older := List.mem_map_of_mem hnode
      have hne : some node.number ≠ some first.number := fun heq =>
        hfirst (Option.some.inj heq ▸ hmem)
      rw [path, if_neg hne]
      exact ih holder hsuffix
    rw [path] at h
    split at h
    · obtain heq | h := List.suffix_cons_iff.mp h
      · cases heq
        rw [path, if_pos rfl]
      · exact further h
    · exact further h

theorem get?_of_mem {t : Tree α} (distinct : t.numbers.Nodup) {node : Node α} (h : node ∈ t) :
    t.get? node.number = some node.item := by
  unfold get?
  have hfind : t.find? (·.number == node.number) = some node := by
    induction t with
    | nil => cases h
    | cons first older ih =>
      obtain ⟨(hfirst : first.number ∉ numbers older), holder⟩ := List.nodup_cons.mp distinct
      obtain rfl | h := List.mem_cons.mp h
      · simp
      · have hmem : node.number ∈ numbers older := List.mem_map_of_mem h
        have hne : first.number ≠ node.number := fun heq => hfirst (heq ▸ hmem)
        rw [List.find?_cons_of_neg (by simpa using hne)]
        exact ih holder h
  rw [hfind]
  rfl

@[simp] theorem get?_modify (t : Tree α) (n m : Nat) (f : α → α) :
    (t.modify n f).get? m = (t.get? m).map fun a => if m = n then f a else a := by
  have hnumber : ((fun node : Node α => node.number == m) ∘ fun node =>
      if node.number = n then { node with item := f node.item } else node) =
        fun node => node.number == m := by
    funext node
    by_cases h : node.number = n <;> simp [h]
  unfold get? modify
  rw [List.find?_map, hnumber]
  cases hfind : t.find? (·.number == m) with
  | none => rfl
  | some node =>
    have hm : node.number = m := by simpa using List.find?_some hfind
    by_cases hn : m = n <;> simp [hm, hn]

/-- The numbers alone, without what stands there. -/
def shape (t : Tree α) : Tree Unit := t.map fun _ => ()

@[simp] theorem shape_modify (t : Tree α) (n : Nat) (f : α → α) : (t.modify n f).shape = t.shape :=
  map_modify (f := fun _ => ()) (fun _ => rfl) t n

@[simp] theorem numbers_path_shape (t : Tree α) (place : Option Nat) :
    (t.shape.path place).numbers = (t.path place).numbers := by
  unfold shape
  rw [path_map, numbers_map]

@[simp] theorem numbers_modify (t : Tree α) (n : Nat) (f : α → α) :
    (t.modify n f).numbers = t.numbers := by
  have hshape := congrArg numbers (t.shape_modify n f)
  unfold shape at hshape
  rwa [numbers_map, numbers_map] at hshape

@[simp] theorem numbers_path_modify (t : Tree α) (n : Nat) (f : α → α) (place : Option Nat) :
    ((t.modify n f).path place).numbers = (t.path place).numbers := by
  rw [← numbers_path_shape, shape_modify, numbers_path_shape]

theorem drop_sublist (t : Tree α) (number : Nat) : List.Sublist (t.drop number) t := by
  unfold drop
  split
  · exact .refl _
  · exact List.filter_sublist

/-- A path stays when something is taken out that is not on it. -/
theorem path_drop {t : Tree α} {n : Nat} {place : Option Nat}
    (h : ∀ node ∈ t.path place, node.number ≠ n) : (t.drop n).path place = t.path place := by
  have hfilter : path (List.filter (·.number != n) t) place = t.path place := by
    induction t generalizing place with
    | nil => rfl
    | cons first older ih =>
      rw [path] at h ⊢
      by_cases hfirst : first.number = n
      · rw [List.filter_cons_of_neg (by simpa using hfirst)]
        split at h
        · exact absurd hfirst (h first List.mem_cons_self)
        next hplace => exact (ih h).trans (if_neg hplace).symm
      · rw [List.filter_cons_of_pos (by simpa using hfirst), path]
        split at h
        next hplace =>
          rw [if_pos hplace, if_pos hplace]
          exact congrArg _ (ih fun node hnode => h node (List.mem_cons_of_mem _ hnode))
        next hplace =>
          rw [if_neg hplace, if_neg hplace]
          exact ih h
  unfold drop
  split
  · rfl
  · exact hfilter

end Tree

end JobEngine
