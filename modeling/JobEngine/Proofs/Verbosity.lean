import JobEngine.Job.Run
/-! How verbose the log is inside spans. Whatever is done with spans, a line passes just when the
base lets it, or when it is no more verbose than the last valid level that was recorded in the
innermost span around it that has one. A span that the filter does not see hides no level, because
one that can carry a level is seen whatever the base rejects. -/

namespace JobEngine

namespace Log

inductive Placement where
  | inside
  | apart
  | within (span : Nat)

def Placement.outer? (innermost? : Option Nat) : Placement → Option Nat
  | .inside => innermost?
  | .apart => none
  | .within n => some n

/-- One use of the log. Spans are numbered as they are made. -/
inductive Use where
  | create (kind : SpanKind) (place : Placement) (values : Fields)
  | record (span : Nat) (values : Fields)
  | enter (span : Nat)
  | exit (span : Nat)
  | close (span : Nat)
  | write (origin : String) (level : Level) (message : String) (fields : Fields)

inductive Turn where
  | enter (span : NewSpan)
  | leave
  | write (origin : String) (level : Level) (message : String) (fields : Fields)

theorem Fields.level?_single (field : String) (v : Value) :
    Fields.level? [(field, v)] = if field = overrideField then v.level? else none := by
  unfold Fields.level? Fields.get?
  by_cases h : field = overrideField <;> simp [h]

structure Chronicle where
  declares : Bool
  values : List Value := []

namespace Chronicle

/-- One call adds one value at most: a span that does not declare the field takes none, and of
several values that one call gives for the field only the last is counted. -/
def record (c : Chronicle) (values : Fields) : Chronicle :=
  if c.declares then { c with values := c.values ++ (values.get? overrideField).toList } else c

def level? (c : Chronicle) : Option Level := (c.values.filterMap Value.level?).getLast?

@[simp] theorem declares_record (c : Chronicle) (values : Fields) :
    (c.record values).declares = c.declares := by
  unfold record
  split <;> rfl

@[simp] theorem level?_record (c : Chronicle) (values : Fields) :
    (c.record values).level? = (if c.declares then values.level? else none).or c.level? := by
  unfold record
  split
  · have hlast : ((values.get? overrideField).toList.filterMap Value.level?).getLast? =
        values.level? := by
      unfold Fields.level?
      cases values.get? overrideField with
      | none => rfl
      | some v => cases h : v.level? <;> simp [h]
    unfold level?
    rw [List.filterMap_append, List.getLast?_append, hlast]
  · rfl

end Chronicle

/-- The spans of a log as they are without a filter: what was recorded in each, and which ones have
been entered. -/
structure Chart where
  spans : Tree Chronicle := []
  entered : List Nat := []
  next : Nat := 0

namespace Chart

def innermost? (c : Chart) : Option Nat := (entries c.entered).head?

def use (c : Chart) : Use → Chart
  | .create kind place values =>
    let made : Chronicle := { declares := kind.declares }
    { c with
      spans := ⟨c.next, place.outer? c.innermost?, made.record values⟩ :: c.spans
      next := c.next + 1 }
  | .record n values => { c with spans := c.spans.modify n (·.record values) }
  | .enter n => { c with entered := n :: c.entered }
  | .exit n => { c with entered := c.entered.erase n }
  | .close n => if c.entered.contains n then c else { c with spans := c.spans.drop n }
  | .write .. => c

def useAll (c : Chart) (uses : List Use) : Chart := uses.foldl use c

def around (c : Chart) (place : Option Nat) : List Chronicle := (c.spans.path place).items

def ruling (c : Chart) (place : Option Nat) : Option Level := (c.around place).findSome? (·.level?)

def IsNested (c : Chart) : Prop := (c.spans.path c.entered.head?).numbers = c.entered

end Chart

def NewSpan.uses (s : NewSpan) (n : Nat) : List Use :=
  .create s.kind .inside s.values :: s.later.map (.record n) ++ [.enter n]

def NewSpan.chronicle (s : NewSpan) : Chronicle :=
  s.later.foldl .record (({ declares := s.kind.declares } : Chronicle).record s.values)

theorem Chart.useAll_record (c : Chart) {older : Tree Chronicle} (n : Nat) (outer : Option Nat)
    (fresh : ∀ node ∈ older, node.number ≠ n) (later : List Fields) (r : Chronicle) :
    Chart.useAll { c with spans := ⟨n, outer, r⟩ :: older } (later.map (.record n)) =
      { c with spans := ⟨n, outer, later.foldl .record r⟩ :: older } := by
  induction later generalizing r with
  | nil => rfl
  | cons values rest ih =>
    refine Eq.trans ?_ (ih (r.record values))
    have hmodify : Tree.modify (⟨n, outer, r⟩ :: older) n (·.record values) =
        ⟨n, outer, r.record values⟩ :: older := by
      rw [Tree.modify_cons, if_pos rfl, Tree.modify_of_fresh fresh]
    change Chart.useAll { c with spans := Tree.modify (⟨n, outer, r⟩ :: older) n _ } _ = _
    rw [hmodify]

theorem Chart.useAll_uses {c : Chart} (fresh : ∀ node ∈ c.spans, node.number ≠ c.next)
    (s : NewSpan) : c.useAll (s.uses c.next) =
      { spans := ⟨c.next, c.innermost?, s.chronicle⟩ :: c.spans
        entered := c.next :: c.entered
        next := c.next + 1 } := by
  unfold NewSpan.uses useAll
  rw [List.foldl_append]
  have hlater := Chart.useAll_record { c with next := c.next + 1 } c.next c.innermost? fresh s.later
    (({ declares := s.kind.declares } : Chronicle).record s.values)
  exact congrArg (use · (.enter c.next)) hlater

/-- What decides about the level in a span: whether it can carry one, and the one that it has. -/
structure Carried where
  declares : Bool
  level? : Option Level

def Carried.record (values : Fields) (c : Carried) : Carried :=
  { c with level? := (if c.declares then values.level? else none).or c.level? }

def Chronicle.carried (c : Chronicle) : Carried := ⟨c.declares, c.level?⟩

def OpenSpan.carried (s : OpenSpan) : Carried := ⟨s.span.declares, s.span.override⟩

@[simp] theorem Chronicle.carried_record (values : Fields) (c : Chronicle) :
    (c.record values).carried = c.carried.record values := by
  unfold carried Carried.record
  simp

theorem Chart.ruling_eq (c : Chart) (place : Option Nat) : c.ruling place =
    ((c.spans.map Chronicle.carried).path place).items.findSome? Carried.level? := by
  rw [Tree.path_map, Tree.items_map, List.findSome?_map]
  rfl

theorem Chart.ruling_record (c : Chart) (n : Nat) {values : Fields} (h : values.level? = none)
    (place : Option Nat) :
    ruling { c with spans := c.spans.modify n (·.record values) } place = c.ruling place := by
  have hsame : ∀ r : Chronicle, (r.record values).carried = r.carried := by
    intro r
    rw [Chronicle.carried_record]
    unfold Carried.record
    rw [h, ite_self]
    rfl
  rw [ruling_eq, ruling_eq]
  exact congrArg (fun t : Tree Carried => (t.path place).items.findSome? Carried.level?)
    (Tree.map_modify hsame c.spans n)

@[simp] theorem Span.declares_record (s : Span) (values : Fields) :
    (s.record values).declares = s.declares := rfl

theorem Span.override_record (s : Span) (values : Fields) :
    (s.record values).override = (if s.declares then values.level? else none).or s.override :=
  congrArg (·.or s.override) (s.level?_known values)

def OpenSpan.record (values : Fields) (s : OpenSpan) : OpenSpan :=
  { s with span := s.span.record values }

@[simp] theorem OpenSpan.carried_record (values : Fields) (s : OpenSpan) :
    (s.record values).carried = s.carried.record values := by
  unfold carried Carried.record record
  simp [Span.override_record]

end Log

/-- The level of a tenant is recorded in the span of a run. -/
@[simp] theorem ExecutionContext.level?_span (c : ExecutionContext) :
    c.span.chronicle.level? = c.logLevel := by
  have hdeclares : spanKind.declares = true := by decide
  have hmade : ∀ start : Log.Chronicle, (start.record c.span.values).level? = start.level? := by
    intro start
    have hnone : c.span.values.level? = none := by
      unfold span Log.Fields.level? Log.Fields.get?
      simp [Log.overrideField]
    simp [hnone]
  have htenant : ∀ (r : Log.Chronicle) (t : TenantKey),
      (r.record [("tenant_id", .str t.text)]).level? = r.level? := by
    intro r t
    have hother : "tenant_id" ≠ Log.overrideField := by decide
    rw [Log.Chronicle.level?_record, Log.Fields.level?_single, if_neg hother, ite_self,
      Option.none_or]
  have hnamed : ∀ (r : Log.Chronicle) (l : Level), r.declares →
      (r.record [(Log.overrideField, .str l.name)]).level? = some l := by
    intro r l hr
    have hlevel : (Log.Value.str l.name).level? = some l := l.ofText?_name
    rw [Log.Chronicle.level?_record, if_pos hr, Log.Fields.level?_single, if_pos rfl, hlevel,
      Option.some_or]
  have hchronicle : c.span.chronicle = c.span.later.foldl .record
    (({ declares := spanKind.declares } : Log.Chronicle).record c.span.values) := rfl
  have hlater : c.span.later =
      (c.tenant.map fun t => [("tenant_id", Log.Value.str t.text)]).toList ++
        (c.logLevel.map fun l => [(Log.overrideField, Log.Value.str l.name)]).toList := rfl
  have hstart :
      (({ declares := spanKind.declares } : Log.Chronicle).record c.span.values).declares :=
    (Log.Chronicle.declares_record ..).trans hdeclares
  have hblank : (({ declares := spanKind.declares } : Log.Chronicle).record c.span.values).level? =
      none := hmade _
  rw [hchronicle, hlater]
  generalize ({ declares := spanKind.declares } : Log.Chronicle).record c.span.values = start
    at hstart hblank ⊢
  cases c.tenant <;> cases c.logLevel <;>
    simp only [Option.map_none, Option.map_some, Option.toList_none, Option.toList_some,
      List.nil_append, List.append_nil, List.cons_append, List.foldl_nil, List.foldl_cons]
  case none.none => exact hblank
  case none.some l => rw [hnamed start l hstart]
  case some.none t => rw [htenant, hblank]
  case some.some t l => rw [hnamed _ l ((Log.Chronicle.declares_record ..).trans hstart)]

namespace Journal

open Log

variable {j : Journal} {c : Chart}

def use (j : Journal) : Use → Journal
  | .create kind place values => j.create kind (place.outer? j.innermost?) values
  | .record n values => j.record n values
  | .enter n => j.enter n
  | .exit n => j.exit n
  | .close n => j.close n
  | .write origin level message fields => j.write origin level message fields

def useAll (j : Journal) (uses : List Use) : Journal := uses.foldl use j

/-- The log has the spans that the chart has, and sees those that can carry a level. -/
structure Charted (j : Journal) (c : Chart) : Prop where
  spans : j.spans.map OpenSpan.carried = c.spans.map Chronicle.carried
  entered : j.entered = c.entered
  next : j.next = c.next
  seen : ∀ node ∈ j.spans, node.item.span.declares → node.item.visible
  fresh : ∀ node ∈ j.spans, node.number < j.next
  distinct : j.spans.numbers.Nodup

theorem Charted.innermost (h : Charted j c) : j.innermost? = c.innermost? := by
  unfold innermost? Chart.innermost?
  rw [h.entered]

private theorem charted_start (base : Base) : Charted { base } {} :=
  ⟨rfl, rfl, rfl, nofun, nofun, .nil⟩

theorem Charted.create (h : Charted j c) (k : SpanKind) (outer : Option Nat) (values : Fields) :
    Charted (j.create k outer values)
      { c with
        spans := ⟨c.next, outer, ({ declares := k.declares } : Chronicle).record values⟩ :: c.spans
        next := c.next + 1 } where
  spans := by
    let blank : Span := { k with }
    let made : OpenSpan := ⟨blank, j.sees k⟩
    have hmade : (made.record values).carried =
        (({ declares := k.declares } : Chronicle).record values).carried := by
      rw [OpenSpan.carried_record, Chronicle.carried_record]
      rfl
    change (⟨j.next, outer, (made.record values).carried⟩ : Node Carried) ::
      j.spans.map OpenSpan.carried = _
    rw [hmade, h.spans, h.next]
    rfl
  entered := h.entered
  next := congrArg (· + 1) h.next
  seen := by
    intro node hnode hdeclares
    obtain rfl | hnode := List.mem_cons.mp hnode
    · change (k.declares || _) = true
      have hk : k.declares = true := hdeclares
      rw [hk]
      rfl
    · exact h.seen node hnode hdeclares
  fresh := by
    intro node hnode
    obtain rfl | hnode := List.mem_cons.mp hnode
    · exact Nat.lt_succ_self _
    · exact Nat.lt_succ_of_lt (h.fresh node hnode)
  distinct := by
    refine List.nodup_cons.mpr ⟨fun hmem => ?_, h.distinct⟩
    obtain ⟨node, hnode, hnumber⟩ := List.mem_map.mp hmem
    exact Nat.lt_irrefl _ (hnumber ▸ h.fresh node hnode)

theorem Charted.record (h : Charted j c) (n : Nat) (values : Fields) :
    Charted (j.record n values) { c with spans := c.spans.modify n (·.record values) } where
  spans := by
    change (j.spans.modify n (OpenSpan.record values)).map OpenSpan.carried = _
    rw [Tree.modify_map (OpenSpan.carried_record values), h.spans,
      Tree.modify_map (Chronicle.carried_record values)]
  entered := h.entered
  next := h.next
  seen := by
    intro node hnode hdeclares
    obtain ⟨old, hold, rfl⟩ := List.mem_map.mp hnode
    have hseen := h.seen old hold
    by_cases hn : old.number = n
    · simp only [hn, ↓reduceIte] at hdeclares ⊢
      exact hseen hdeclares
    · simp only [hn, ↓reduceIte] at hdeclares ⊢
      exact hseen hdeclares
  fresh := by
    intro node hnode
    obtain ⟨old, hold, rfl⟩ := List.mem_map.mp hnode
    split
    · exact h.fresh old hold
    · exact h.fresh old hold
  distinct := by
    change (j.spans.modify n (OpenSpan.record values)).numbers.Nodup
    rw [Tree.numbers_modify]
    exact h.distinct

theorem Charted.drop (h : Charted j c) (n : Nat) :
    Charted { j with spans := j.spans.drop n } { c with spans := c.spans.drop n } where
  spans := by rw [Tree.drop_map, h.spans, Tree.drop_map]
  entered := h.entered
  next := h.next
  seen node hnode := h.seen node ((Tree.drop_sublist _ _).subset hnode)
  fresh node hnode := h.fresh node ((Tree.drop_sublist _ _).subset hnode)
  distinct := h.distinct.sublist ((Tree.drop_sublist _ _).map _)

theorem Charted.use (h : Charted j c) (u : Use) : Charted (j.use u) (c.use u) := by
  cases u with
  | create kind place values =>
    have hcreate := h.create kind (place.outer? j.innermost?) values
    rw [h.innermost] at hcreate
    change Charted (j.create kind (place.outer? j.innermost?) values) _
    rw [h.innermost]
    exact hcreate
  | record n values => exact h.record n values
  | enter n => exact { h with entered := congrArg (n :: ·) h.entered }
  | exit n => exact { h with entered := congrArg (·.erase n) h.entered }
  | close n =>
    have hentered : j.entered.contains n = c.entered.contains n := by rw [h.entered]
    change Charted (if j.entered.contains n then j else _) (if c.entered.contains n then c else _)
    rw [hentered]
    split
    · exact h
    · exact h.drop n
  | write origin level message fields =>
    change Charted (if _ then _ else _) c
    split
    · exact { h with }
    · exact h

theorem charted_useAll (h : Charted j c) (uses : List Use) :
    Charted (j.useAll uses) (c.useAll uses) := by
  induction uses generalizing j c with
  | nil => exact h
  | cons u rest ih => exact ih (h.use u)

@[simp] theorem base_useAll (j : Journal) (uses : List Use) : (j.useAll uses).base = j.base := by
  induction uses generalizing j with
  | nil => rfl
  | cons u rest ih =>
    refine (ih (j.use u)).trans ?_
    cases u with
    | create | record | enter | exit => rfl
    | close n =>
      change (if _ then j else _).base = _
      split <;> rfl
    | write origin level message fields =>
      change (if _ then _ else j).base = _
      split <;> rfl

theorem findSome?_filter {α β : Type} {p : α → Bool} {f : α → Option β} {l : List α}
    (h : ∀ a ∈ l, p a = false → f a = none) : (l.filter p).findSome? f = l.findSome? f := by
  induction l with
  | nil => rfl
  | cons a rest ih =>
    have hrest := ih fun b hb => h b (List.mem_cons_of_mem a hb)
    cases hp : p a with
    | true => rw [List.filter_cons_of_pos hp, List.findSome?_cons, List.findSome?_cons, hrest]
    | false =>
      have hnone : f a = none := h a List.mem_cons_self hp
      rw [List.filter_cons_of_neg (by simp [hp]), List.findSome?_cons, hnone, hrest]

theorem Charted.isSeen_eq (h : Charted j c) {node : Node OpenSpan} (hnode : node ∈ j.spans) :
    j.isSeen node.number = node.item.visible := by
  unfold isSeen
  rw [Tree.get?_of_mem h.distinct hnode]
  rfl

theorem Charted.unseen (h : Charted j c) {node : Node OpenSpan} (hnode : node ∈ j.spans)
    (hidden : node.item.visible = false) : node.item.span.override = none := by
  cases hlevel : node.item.span.override with
  | none => rfl
  | some level =>
    have hdeclares := node.item.span.override_declared (by rw [hlevel]; rfl)
    rw [h.seen node hnode hdeclares] at hidden
    cases hidden

theorem Charted.ruling_eq (h : Charted j c) (place : Option Nat) :
    c.ruling place = (j.spans.path place).items.findSome? (·.span.override) := by
  rw [c.ruling_eq, ← h.spans, Tree.path_map, Tree.items_map, List.findSome?_map]
  rfl

theorem Charted.inForce_eq (h : Charted j c) : j.inForce = c.ruling j.current? := by
  rw [h.ruling_eq]
  refine findSome?_filter fun s hs hidden => ?_
  obtain ⟨node, hnode, rfl⟩ := List.mem_map.mp hs
  exact h.unseen (Tree.mem_of_mem_path hnode) hidden

theorem Charted.passes_iff (h : Charted j c) (origin : String) (fields : Option (List String))
    (level : Level) : j.passes origin fields level ↔ j.base.lets origin fields level ∨
      ∃ limit, c.ruling j.current? = some limit ∧ level.verbosity ≤ limit.verbosity := by
  unfold passes
  rw [h.inForce_eq, Bool.or_eq_true, Option.any_eq_true]
  simp only [Level.within, decide_eq_true_eq]

/-! ## Spans in one another -/

private theorem entries_of_nodup {entered : List Nat} (h : entered.Nodup) :
    entries entered = entered := by
  induction entered with
  | nil => rfl
  | cons n outer ih =>
    obtain ⟨hn, houter⟩ := List.nodup_cons.mp h
    rw [entries, if_neg (by simpa using hn), ih houter]

def IsNested (j : Journal) : Prop := (j.spans.path j.entered.head?).numbers = j.entered

theorem Charted.isNested_iff (h : Charted j c) : j.IsNested ↔ c.IsNested := by
  unfold IsNested Chart.IsNested
  rw [← h.entered, ← Tree.numbers_map OpenSpan.carried, ← Tree.path_map, h.spans, Tree.path_map,
    Tree.numbers_map]

theorem Charted.entered_nodup (h : Charted j c) (nested : j.IsNested) : j.entered.Nodup := by
  have hpath : List.Sublist (j.spans.path j.entered.head?).numbers j.spans.numbers :=
    (j.spans.path_sublist _).map _
  rw [nested] at hpath
  exact h.distinct.sublist hpath

theorem Charted.entries_eq (h : Charted j c) (nested : j.IsNested) :
    entries j.entered = j.entered := entries_of_nodup (h.entered_nodup nested)

theorem Charted.innermost_of_nested (h : Charted j c) (nested : j.IsNested) :
    j.innermost? = j.entered.head? := congrArg List.head? (h.entries_eq nested)

theorem Charted.level_of_suffix (h : Charted j c) {place : Option Nat} {rest : Tree OpenSpan}
    (hrest : List.IsSuffix rest (j.spans.path place)) :
    (j.spans.path (rest.numbers.find? j.isSeen)).items.findSome? (·.span.override) =
      rest.items.findSome? (·.span.override) := by
  induction rest with
  | nil =>
    change (j.spans.path none).items.findSome? _ = _
    simp
  | cons node further ih =>
    have hnode : node ∈ j.spans := Tree.mem_of_mem_path (hrest.subset List.mem_cons_self)
    have hseen : j.isSeen node.number = node.item.visible := h.isSeen_eq hnode
    change (j.spans.path ((node.number :: Tree.numbers further).find? _)).items.findSome? _ =
      (node.item :: Tree.items further).findSome? _
    cases hvisible : node.item.visible with
    | true =>
      rw [List.find?_cons_of_pos (hseen.trans hvisible), Tree.path_of_suffix h.distinct hrest]
      rfl
    | false =>
      rw [List.find?_cons_of_neg (by simp [hseen, hvisible]), List.findSome?_cons,
        h.unseen hnode hvisible]
      exact ih ((List.suffix_cons node further).trans hrest)

theorem Charted.ruling_of_nested (h : Charted j c) (nested : j.IsNested) :
    c.ruling j.current? = c.ruling j.entered.head? := by
  have hcurrent : j.current? = (j.spans.path j.entered.head?).numbers.find? j.isSeen := by
    unfold current?
    rw [h.entries_eq nested, nested]
  rw [h.ruling_eq, h.ruling_eq, hcurrent]
  exact h.level_of_suffix (List.suffix_refl _)

private theorem nested_record (nested : j.IsNested) (n : Nat) (values : Fields) :
    (j.record n values).IsNested :=
  (Tree.numbers_path_modify j.spans n (OpenSpan.record values) _).trans nested

theorem Charted.nested_enterNew (h : Charted j c) (nested : j.IsNested) (s : NewSpan) :
    (j.enterNew s).IsNested := by
  have hlater : ∀ (made : Journal) (later : List Fields),
      (made.enter j.next).IsNested →
        ((later.foldl (fun made values => made.record j.next values) made).enter
          j.next).IsNested := by
    intro made later
    induction later generalizing made with
    | nil => exact id
    | cons values rest ih => exact fun hmade => ih _ (nested_record hmade j.next values)
  refine hlater _ _ ?_
  change Tree.numbers (Tree.path (_ :: j.spans) (some j.next)) = j.next :: j.entered
  rw [Tree.path, if_pos rfl]
  change j.next :: Tree.numbers (j.spans.path j.innermost?) = _
  rw [h.innermost_of_nested nested, nested]

theorem Charted.nested_outer (h : Charted j c) (nested : j.IsNested) {n : Nat} {outer : List Nat}
    (hentered : j.entered = n :: outer) : (j.spans.path outer.head?).numbers = outer := by
  have hpath : (j.spans.path (some n)).numbers = n :: outer := by
    unfold IsNested at nested
    rwa [hentered] at nested
  obtain ⟨node, further, hnode, -, rfl⟩ := List.map_eq_cons_iff.mp hpath
  cases further with
  | nil => exact congrArg Tree.numbers (Tree.path_none _)
  | cons first rest =>
    have hsuffix : List.IsSuffix (first :: rest) (j.spans.path (some n)) := by
      rw [hnode]
      exact List.suffix_cons node (first :: rest)
    exact congrArg Tree.numbers (Tree.path_of_suffix h.distinct hsuffix)

theorem Charted.nested_leave (h : Charted j c) (nested : j.IsNested) : j.leave.IsNested := by
  unfold leave
  rw [h.innermost_of_nested nested]
  cases hentered : j.entered with
  | nil => exact nested
  | cons n outer =>
    have hnodup := h.entered_nodup nested
    rw [hentered] at hnodup
    have hleft : n ∉ outer := (List.nodup_cons.mp hnodup).1
    have houter := h.nested_outer nested hentered
    have hstays : ∀ other ∈ j.spans.path outer.head?, other.number ≠ n := by
      intro other hother heq
      have hmem : other.number ∈ (j.spans.path outer.head?).numbers := List.mem_map_of_mem hother
      rw [houter, heq] at hmem
      exact hleft hmem
    have hexit : j.exit n = { j with entered := outer } := by
      unfold exit
      rw [hentered, List.erase_cons_head]
    change ((j.exit n).close n).IsNested
    rw [hexit]
    unfold close
    rw [if_neg (by simpa using hleft)]
    change ((j.spans.drop n).path outer.head?).numbers = outer
    rw [Tree.path_drop hstays, houter]

def leaving (j : Journal) : List Use :=
  match j.innermost? with
  | none => []
  | some n => [.exit n, .close n]

private theorem leave_eq (j : Journal) : j.leave = j.useAll j.leaving := by
  unfold leave leaving
  cases j.innermost? <;> rfl

theorem enterNew_eq (j : Journal) (s : NewSpan) : j.enterNew s = j.useAll (s.uses j.next) := by
  unfold NewSpan.uses useAll
  simp only [List.foldl_append, List.foldl_cons, List.foldl_nil, List.foldl_map]
  rfl

def turn (j : Journal) : Turn → Journal
  | .enter s => j.enterNew s
  | .leave => j.leave
  | .write origin level message fields => j.write origin level message fields

def turnAll (j : Journal) (turns : List Turn) : Journal := turns.foldl turn j

def usesOf (j : Journal) : Turn → List Use
  | .enter s => s.uses j.next
  | .leave => j.leaving
  | .write origin level message fields => [.write origin level message fields]

private theorem turn_eq (j : Journal) (t : Turn) : j.turn t = j.useAll (j.usesOf t) := by
  cases t with
  | enter s => exact j.enterNew_eq s
  | leave => exact j.leave_eq
  | write origin level message fields => rfl

theorem Charted.nested_turn (h : Charted j c) (nested : j.IsNested) (t : Turn) :
    (j.turn t).IsNested := by
  cases t with
  | enter s => exact h.nested_enterNew nested s
  | leave => exact h.nested_leave nested
  | write origin level message fields =>
    change (if _ then _ else j).IsNested
    split
    · exact nested
    · exact nested

theorem Charted.exists_uses (h : Charted j c) (nested : j.IsNested) (turns : List Turn) :
    ∃ uses, j.turnAll turns = j.useAll uses ∧ (c.useAll uses).IsNested := by
  induction turns generalizing j c with
  | nil => exact ⟨[], rfl, h.isNested_iff.mp nested⟩
  | cons t rest ih =>
    have hturn : Charted (j.turn t) (c.useAll (j.usesOf t)) := by
      rw [turn_eq]
      exact charted_useAll h _
    obtain ⟨uses, hjournal, hnested⟩ := ih hturn (h.nested_turn nested t)
    refine ⟨j.usesOf t ++ uses, ?_, ?_⟩
    · unfold useAll
      rw [List.foldl_append]
      change (j.turn t).turnAll rest = useAll (j.useAll (j.usesOf t)) uses
      rw [hjournal, turn_eq]
    · unfold Chart.useAll
      rw [List.foldl_append]
      exact hnested

theorem Charted.unused (h : Charted j c) : ∀ node ∈ c.spans, node.number ≠ c.next := by
  intro node hnode heq
  have hnumbers : c.spans.numbers = j.spans.numbers := by
    rw [← Tree.numbers_map Chronicle.carried, ← h.spans, Tree.numbers_map]
  have hmem : node.number ∈ c.spans.numbers := List.mem_map_of_mem hnode
  rw [hnumbers, heq, ← h.next] at hmem
  obtain ⟨other, hother, hnumber⟩ := List.mem_map.mp hmem
  exact Nat.lt_irrefl j.next (hnumber ▸ h.fresh other hother)

theorem Charted.inForce_enterNew (h : Charted j c) (nested : j.IsNested) {s : NewSpan}
    {limit : Level} (hlimit : s.chronicle.level? = some limit) :
    (j.enterNew s).inForce = some limit := by
  have hcharted : Charted (j.enterNew s) (c.useAll (s.uses c.next)) := by
    rw [enterNew_eq, h.next]
    exact charted_useAll h _
  rw [hcharted.inForce_eq, hcharted.ruling_of_nested (h.nested_enterNew nested s), hcharted.entered,
    Chart.useAll_uses h.unused]
  unfold Chart.ruling Chart.around
  change (Tree.items (Tree.path (_ :: c.spans) (some c.next))).findSome? _ = _
  rw [Tree.path, if_pos rfl]
  change List.findSome? _ (s.chronicle :: _) = _
  rw [List.findSome?_cons, hlimit]

/-- What the journal lets pass, by what was recorded in its spans. -/
structure Governed (base : Base) (j : Journal) (c : Chart) : Prop where
  decides : ∀ origin fields level, j.passes origin fields level ↔
    base.lets origin fields level ∨
      ∃ limit, c.ruling j.current? = some limit ∧ level.verbosity ≤ limit.verbosity
  written : ∀ origin level message fields,
    (j.write origin level message fields).lines =
      if j.passes origin (some ("message" :: fields.map (·.1))) level then
        ⟨level, message, fields, (j.around.map (·.span)).reverse⟩ :: j.lines
      else j.lines
  widens : ∀ origin fields level, base.lets origin fields level → j.passes origin fields level
  replaces : ∀ inner s outer limit, c.around j.current? = inner ++ s :: outer →
    (∀ r ∈ inner, r.level? = none) → s.level? = some limit → ∀ origin fields level,
      j.passes origin fields level ↔
        base.lets origin fields level ∨ level.verbosity ≤ limit.verbosity
  outside : (∀ s ∈ c.around j.current?, s.level? = none) → ∀ origin fields level,
    j.passes origin fields level ↔ base.lets origin fields level
  invalid : ∀ n (value : Value), value.level? = none → ∀ origin fields level,
    (j.record n [(overrideField, value)]).passes origin fields level = j.passes origin fields level
  found : ∀ node ∈ j.spans, node.item.span.declares → node.item.visible ∧
    (j.innermost? = some node.number → j.current? = some node.number)
  nested : c.IsNested → c.ruling j.current? = c.ruling j.entered.head?
  runs : c.IsNested → ∀ (context : ExecutionContext) limit, context.logLevel = some limit →
    ∀ origin fields level, (j.enterNew context.span).passes origin fields level ↔
      base.lets origin fields level ∨ level.verbosity ≤ limit.verbosity

@[simp] theorem current?_record (j : Journal) (n : Nat) (values : Fields) :
    (j.record n values).current? = j.current? := by
  have hseen : (j.record n values).isSeen = j.isSeen := by
    funext m
    change (Option.any _ ((j.spans.modify n (OpenSpan.record values)).get? m)) = _
    rw [Tree.get?_modify]
    unfold isSeen
    cases j.spans.get? m with
    | none => rfl
    | some s => by_cases hm : m = n <;> simp [hm, OpenSpan.record]
  unfold current?
  rw [hseen]
  rfl

theorem Charted.governed (h : Charted j c) : Governed j.base j c where
  decides := h.passes_iff
  written := by
    intro origin level message fields
    unfold write
    split <;> rfl
  widens origin fields level hbase := (h.passes_iff origin fields level).mpr (.inl hbase)
  replaces := by
    intro inner s outer limit haround hinner hlimit origin fields level
    have hruling : c.ruling j.current? = some limit := by
      unfold Chart.ruling
      rw [haround, List.findSome?_append, List.findSome?_eq_none_iff.mpr hinner,
        List.findSome?_cons, hlimit]
      rfl
    rw [h.passes_iff, hruling]
    simp
  outside := by
    intro hnone origin fields level
    have hruling : c.ruling j.current? = none := List.findSome?_eq_none_iff.mpr hnone
    rw [h.passes_iff, hruling]
    simp
  invalid := by
    intro n value hvalue origin fields level
    have hlevel : Fields.level? [(overrideField, value)] = none := by
      rw [Fields.level?_single, if_pos rfl, hvalue]
    have hruling := c.ruling_record n hlevel j.current?
    have hrecord := h.record n [(overrideField, value)]
    rw [Bool.eq_iff_iff, hrecord.passes_iff, h.passes_iff, current?_record, hruling]
    rfl
  found := by
    intro node hnode hdeclares
    have hvisible := h.seen node hnode hdeclares
    refine ⟨hvisible, fun hinnermost => ?_⟩
    obtain ⟨outer, houter⟩ := List.head?_eq_some_iff.mp hinnermost
    unfold current?
    rw [houter]
    exact List.find?_cons_of_pos ((h.isSeen_eq hnode).trans hvisible)
  nested hnested := h.ruling_of_nested (h.isNested_iff.mpr hnested)
  runs := by
    intro hnested context limit hlimit origin fields level
    have hinForce := h.inForce_enterNew (h.isNested_iff.mpr hnested)
      (context.level?_span.trans hlimit)
    have hbase : (j.enterNew context.span).base = j.base := by
      simp [enterNew_eq]
    unfold passes
    rw [hinForce, hbase, Bool.or_eq_true]
    simp [Level.within]

/-- Whatever is done with spans, what passes is what the base lets pass, and what is no more verbose
than the last valid level of the innermost span that has one. The turns of the program are such
uses, and its spans lie in one another. -/
theorem override_decides (base : Base) :
    (∀ uses, Governed base (useAll { base } uses) (Chart.useAll {} uses)) ∧
      ∀ turns, ∃ uses, turnAll { base } turns = useAll { base } uses ∧
        (Chart.useAll {} uses).IsNested := by
  refine ⟨fun uses => ?_, fun turns => (charted_start base).exists_uses rfl turns⟩
  have hgoverned := (charted_useAll (charted_start base) uses).governed
  rwa [base_useAll] at hgoverned

/-- Neither the span that is not seen nor the value that names no level hides the level further
out. -/
example : ((useAll {} [
    .create ⟨"request", "api", .info, [overrideField]⟩ .inside [(overrideField, .str "debug")],
    .enter 0, .record 0 [(overrideField, .str "loud")],
    .create ⟨"query", "database", .trace, []⟩ .inside [], .enter 1]).inForce) = some .debug := by
  decide

end Journal

end JobEngine
