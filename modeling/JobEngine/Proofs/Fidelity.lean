import JobEngine.Codec
import JobEngine.Proofs.ListedStatistics
import JobEngine.Proofs.Spelling
/-! The JSON form of what is stored or sent is read as the value that it was made of. Readers accept
more than what is written, but read nothing that could not have been written. -/

namespace JobEngine.Codec

/-- A value that fits is read as it was written, and what is read fits, so it is the same when it is
written and read again. -/
structure Faithful {α : Type} (write : α → Json) (read : Json → Option α) (Fits : α → Prop) :
    Prop where
  read_write : ∀ a, Fits a → read (write a) = some a
  fits : ∀ j a, read j = some a → Fits a
  reread : ∀ j a, read j = some a → read (write a) = some a

section

variable {α : Type} {write : α → Json} {read : Json → Option α} {Fits : α → Prop}

theorem Faithful.of_fits (hwrite : ∀ a, Fits a → read (write a) = some a)
    (hfits : ∀ j a, read j = some a → Fits a) : Faithful write read Fits :=
  ⟨hwrite, hfits, fun j a h => hwrite a (hfits j a h)⟩

theorem Faithful.of_forall (hwrite : ∀ a, read (write a) = some a) :
    Faithful write read fun _ => True :=
  .of_fits (fun a _ => hwrite a) fun _ _ _ => trivial

theorem optional_ofOption (hnull : read .null = none) (hwrite : ∀ a, read (write a) = some a)
    (o : Option α) : optional read (Json.ofOption write o) = some o := by
  cases o with
  | none => rfl
  | some a =>
    change optional read (write a) = some (some a)
    unfold optional
    split
    next heq =>
      have hread := hwrite a
      rw [heq, hnull] at hread
      cases hread
    next => rw [hwrite, Option.map_some]

end

/-! Records. -/

private theorem mapM_congr {α β : Type} {f g : α → Option β} {l : List α} (h : ∀ a ∈ l, f a = g a) :
    l.mapM f = l.mapM g := by
  induction l with
  | nil => rfl
  | cons a rest ih =>
    rw [List.mapM_cons, List.mapM_cons, h a List.mem_cons_self,
      ih fun b hb => h b (List.mem_cons_of_mem a hb)]

/-- A record is read field by field as it was written, when its fields have names of their own. -/
theorem record_ofRecord {shape : Shape} {values : List Json}
    (hlength : values.length = shape.length) (hnames : (shape.map (·.1)).Nodup) :
    record shape (ofRecord shape values) = some values := by
  induction shape generalizing values with
  | nil =>
    rw [List.length_eq_zero_iff.mp hlength]
    rfl
  | cons f rest ih =>
    cases values with
    | nil => cases hlength
    | cons v others =>
      obtain ⟨hother, hnames⟩ := List.nodup_cons.mp hnames
      let fields := (rest.map (·.1)).zip others
      have hfirst : readField ((f.1, v) :: fields) f.1 f.2 = some v := by
        unfold readField
        rw [List.find?_cons_of_pos (by simp)]
        rfl
      have hrest : rest.mapM (fun g => readField ((f.1, v) :: fields) g.1 g.2) =
          rest.mapM fun g => readField fields g.1 g.2 := by
        refine mapM_congr fun g hg => ?_
        have hne : f.1 ≠ g.1 := fun heq => hother (List.mem_map.mpr ⟨g, hg, heq.symm⟩)
        unfold readField
        rw [List.find?_cons_of_neg (by simpa using hne)]
      have hread : rest.mapM (fun g => readField fields g.1 g.2) = some others :=
        ih (Nat.succ.inj hlength) hnames
      change (f :: rest).mapM (fun g => readField ((f.1, v) :: fields) g.1 g.2) = _
      rw [List.mapM_cons, hfirst, hrest, hread]
      rfl

/-! Single values. -/

theorem integer_int {least greatest n : Int} (h : least ≤ n ∧ n ≤ greatest) :
    integer least greatest (.int n) = some n := if_pos h

theorem within_of_integer {least greatest n : Int} {j : Json}
    (h : integer least greatest j = some n) : least ≤ n ∧ n ≤ greatest := by
  obtain ⟨m, -, hm⟩ := Option.bind_eq_some_iff.mp h
  split at hm
  next hwithin =>
    cases hm
    exact hwithin
  next => cases hm

theorem natural_int {bits n : Nat} (h : n < twoTo bits) : natural bits (.int n) = some n := by
  unfold natural
  rw [integer_int (by omega), Option.map_some, Int.toNat_natCast]

private theorem lt_of_natural {bits n : Nat} {j : Json} (h : natural bits j = some n) :
    n < twoTo bits := by
  obtain ⟨m, hm, rfl⟩ := Option.map_eq_some_iff.mp h
  have hwithin := within_of_integer hm
  omega

@[simp] private theorem uuid_ofUuid (u : Uuid) : uuid (ofUuid u) = some u := by
  change (some u.text).bind Uuid.ofText? = some u
  simp

@[simp] theorem stamp_ofStamp (t : Stamp) : stamp (ofStamp t) = some t := by
  change (some t.text).bind Stamp.ofText? = some t
  simp

@[simp] theorem tenant_ofTenant (t : Option TenantKey) : optional tenantKey (ofTenant t) = some t :=
  have hnull : tenantKey .null = none := rfl
  optional_ofOption hnull (fun _ => rfl) t

@[simp] private theorem text_ofText (s : Option String) :
    optional Json.text? (Json.ofOption .str s) = some s :=
  have hnull : Json.text? .null = none := rfl
  optional_ofOption hnull (fun _ => rfl) s

@[simp] private theorem stamp_ofStamp? (t : Option Stamp) :
    optional stamp (Json.ofOption ofStamp t) = some t := optional_ofOption rfl stamp_ofStamp t

@[simp] private theorem jobState_name (s : JobState) : jobState (.str s.name) = some s :=
  congrArg Except.toOption s.ofName_name

@[simp] private theorem entryType_name (e : EntryType) : entryType (.str e.name) = some e :=
  congrArg Except.toOption e.ofName_name

@[simp] private theorem valueType_name (v : ValueType) : valueType (.str v.name) = some v :=
  congrArg Except.toOption v.ofName_name

@[simp] private theorem strategy_name (s : BackoffStrategy) : strategy (.str s.name) = some s := by
  cases s <;> rfl

@[simp] theorem triggerData_ofTriggerData (d : TriggerData) :
    triggerData (ofTriggerData d) = some d := by
  have hread : ∀ m : List (String × String),
      (m.map fun e => (e.1, Json.str e.2)).mapM (fun f => f.2.text?.map (f.1, ·)) = some m := by
    intro m
    induction m with
    | nil => rfl
    | cons e rest ih =>
      rw [List.map_cons, List.mapM_cons, ih]
      rfl
  unfold triggerData ofTriggerData
  simp only [hread, Option.bind_eq_bind, Option.bind_some, Dict.ofList_entries]

@[simp] theorem duration_ofDuration (d : Duration) : duration (ofDuration d) = some d := by
  have hknown : ((ofDuration d).fields?.getD []).all
      (fun f => f.1 == "secs" || f.1 == "nanos") = true := rfl
  have hnanos := d.nanos_le
  have hseconds : d.seconds < twoTo 64 := by
    have hmost : Duration.maxNanos < twoTo 64 * nanosPerSecond := by decide
    exact (Nat.div_lt_iff_lt_mul (by decide)).mpr (Nat.lt_of_le_of_lt hnanos hmost)
  have hsub : d.subsecond < twoTo 32 := by
    have hlt : d.subsecond < nanosPerSecond := Nat.mod_lt _ (by decide)
    exact Nat.lt_trans hlt (by decide)
  have hparts : Duration.ofParts? d.seconds d.subsecond = some d := by
    unfold Duration.ofParts? Duration.ofNanos?
    simp [hnanos]
  have hrecord : record durationShape (ofDuration d) =
      some [.int d.seconds, .int d.subsecond] := record_ofRecord rfl (by decide)
  unfold duration
  rw [hrecord, if_pos hknown]
  change ((natural 64 _).bind fun seconds => (natural 32 _).bind (Duration.ofParts? seconds)) = _
  rw [natural_int hseconds, Option.bind_some, natural_int hsub, Option.bind_some, hparts]

@[simp] private theorem backoff_ofBackoff (b : Backoff) : backoff (ofBackoff b) = some b := by
  have hrecord : record backoffShape (ofBackoff b) = some
      [.str b.strategy.name, ofDuration b.base, ofDuration b.cap] := record_ofRecord rfl (by decide)
  unfold backoff
  simp only [hrecord, strategy_name, duration_ofDuration, Option.bind_eq_bind, Option.bind_some]

private theorem event_ofEvent (e : OutboundEvent) : event (ofEvent e) = some e := by
  have hrecord : record eventShape (ofEvent e) = some
      [ofUuid e.eventId, ofTenant e.tenant, .str e.eventType, .str e.target, e.payload,
        ofStamp e.occurredAt] := record_ofRecord rfl (by decide)
  unfold event
  simp only [hrecord, uuid_ofUuid, tenant_ofTenant, Json.text?, stamp_ofStamp, Option.bind_eq_bind,
    Option.bind_some]

/-! Values with numbers of so many bits. -/

def IsSigned (bits : Nat) (n : Int) : Prop := -twoTo (bits - 1) ≤ n ∧ n ≤ twoTo (bits - 1) - 1

private theorem retryPolicy_ofRetryPolicy {p : RetryPolicy} (h : IsSigned 32 p.maxRetries) :
    retryPolicy (ofRetryPolicy p) = some p := by
  have hrecord : record retryPolicyShape (ofRetryPolicy p) =
      some [.int p.maxRetries, ofBackoff p.backoff] := record_ofRecord rfl (by decide)
  unfold retryPolicy
  simp only [hrecord, integer_int h, backoff_ofBackoff, Option.bind_eq_bind, Option.bind_some]

private theorem signed_of_retryPolicy {j : Json} {p : RetryPolicy} (h : retryPolicy j = some p) :
    IsSigned 32 p.maxRetries := by
  unfold retryPolicy at h
  split at h
  next =>
    simp only [Option.bind_eq_bind, Option.bind_eq_some_iff] at h
    obtain ⟨most, hmost, backoff, -, h⟩ := h
    cases h
    exact within_of_integer hmost
  next => cases h

theorem jobStatus_ofJobStatus {s : JobStatus} (h : s.attempts < twoTo 32) :
    jobStatus (ofJobStatus s) = some s := by
  have hrecord : record jobStatusShape (ofJobStatus s) = some
      [.str s.id.text, .str s.kind, .str s.state.name, .bool s.triggered, ofTenant s.owner,
        Json.ofOption .str s.result, .int s.attempts, ofStamp s.createdAt, ofStamp s.updatedAt,
        Json.ofOption ofStamp s.startedAt, Json.ofOption ofStamp s.finishedAt] :=
    record_ofRecord rfl (by decide)
  unfold jobStatus
  simp only [hrecord, jobKey, Json.text?, Json.bool?, jobState_name, tenant_ofTenant, text_ofText,
    natural_int h, stamp_ofStamp, stamp_ofStamp?, Option.map_some, Option.bind_eq_bind,
    Option.bind_some]

theorem lt_of_jobStatus {j : Json} {s : JobStatus} (h : jobStatus j = some s) :
    s.attempts < twoTo 32 := by
  unfold jobStatus at h
  split at h
  next =>
    simp only [Option.bind_eq_bind, Option.bind_eq_some_iff] at h
    obtain ⟨id, -, kind, -, state, -, triggered, -, owner, -, result, -, attempts, hattempts,
      created, -, updated, -, started, -, finished, -, h⟩ := h
    cases h
    exact lt_of_natural hattempts
  next => cases h

private theorem statistic_ofStatistic {s : Statistic} (h : IsSigned 64 s.value) :
    statistic (ofStatistic s) = some s := by
  have hrecord : record statisticShape (ofStatistic s) = some
      [ofUuid s.id, .str s.entryType.name, .str s.valueType.name, ofTenant s.owner, .int s.value,
        ofStamp s.recordedAt] := record_ofRecord rfl (by decide)
  unfold statistic
  simp only [hrecord, uuid_ofUuid, entryType_name, valueType_name, tenant_ofTenant, integer_int h,
    stamp_ofStamp, Option.bind_eq_bind, Option.bind_some]

private theorem signed_of_statistic {j : Json} {s : Statistic} (h : statistic j = some s) :
    IsSigned 64 s.value := by
  unfold statistic at h
  split at h
  next =>
    simp only [Option.bind_eq_bind, Option.bind_eq_some_iff] at h
    obtain ⟨id, -, entry, -, type, -, owner, -, value, hvalue, recorded, -, h⟩ := h
    cases h
    exact within_of_integer hvalue
  next => cases h

/-- What is stored or sent is read back as it was, whatever its texts, times, identifiers and
payload are; only the numbers have to be of the width that their fields have. This is about JSON
values: nothing is said of their text, `Json.text` and `Json.ofText?`, which can change a number
with a fraction such as 9.038978862819015. -/
theorem values_read_back :
    Faithful ofJobStatus jobStatus (·.attempts < twoTo 32) ∧
      Faithful ofTriggerData triggerData (fun _ => True) ∧
      Faithful ofRetryPolicy retryPolicy (IsSigned 32 ·.maxRetries) ∧
      Faithful ofBackoff backoff (fun _ => True) ∧
      Faithful (.str ·.name) strategy (fun _ => True) ∧
      Faithful ofEvent event (fun _ => True) ∧
      Faithful ofStatistic statistic (IsSigned 64 ·.value) :=
  ⟨.of_fits (fun _ => jobStatus_ofJobStatus) fun _ _ => lt_of_jobStatus,
    .of_forall triggerData_ofTriggerData,
    .of_fits (fun _ => retryPolicy_ofRetryPolicy) fun _ _ => signed_of_retryPolicy,
    .of_forall backoff_ofBackoff, .of_forall strategy_name, .of_forall event_ofEvent,
    .of_fits (fun _ => statistic_ofStatistic) fun _ _ => signed_of_statistic⟩

end JobEngine.Codec
