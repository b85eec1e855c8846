import JobEngine.Proofs.Guard
import JobEngine.Proofs.Rows
import JobEngine.Proofs.SchedulerTriples
/-! What a ledger says while fires are in the air. A row is marked as running only as long as a fire
of its job is there. Such jobs are not registered meanwhile, but they may be cancelled. -/

namespace JobEngine

variable {σ η ν α β : Type}

/-- A fire in the air. -/
structure Sortie (η ν : Type) where
  flight : Flight η ν
  recorded : Bool
  /-- The attempt of the last fire of its job that took off, itself or one after it. -/
  latest : Nat
  /-- Another fire of its job has landed since it took off. -/
  crossed : Bool

namespace Sortie

def key (x : Sortie η ν) : JobKey := x.flight.taken.fire.key

def attempt (x : Sortie η ν) : Nat := x.flight.taken.fire.refireCount

def first (l : MemoryLedger) (flight : Flight η ν) : Sortie η ν where
  flight := flight
  recorded := (l.get? flight.taken.fire.key).isSome
  latest := flight.taken.fire.refireCount
  crossed := false

def besideStart (other : Flight η ν) (x : Sortie η ν) : Sortie η ν :=
  if x.key = other.taken.fire.key then { x with latest := other.taken.fire.refireCount } else x

def besideLanding (key : JobKey) (x : Sortie η ν) : Sortie η ν :=
  if x.key = key then { x with crossed := true } else x

def takeOff (l : MemoryLedger) (flight : Flight η ν) (air : List (Sortie η ν)) :
    List (Sortie η ν) :=
  first l flight :: air.map (besideStart flight)

/-- The row of its job was marked when the last fire took off. Only a cancellation moves it after
that, or another fire of the job that lands. -/
structure Marks (x : Sortie η ν) (row : JobStatus) : Prop where
  begun : row.state ≠ .created
  attempts : row.attempts = x.latest
  untouched : x.crossed = false → row.state = .cancelled ∨
    row.state = .running ∧ row.finishedAt = none

def Elsewhere (key : JobKey) (air air' : List (Sortie η ν)) : Prop :=
  ∀ x : Sortie η ν, x.key ≠ key → (x ∈ air' ↔ x ∈ air)

section

variable {l : MemoryLedger} {flight : Flight η ν} {air : List (Sortie η ν)} {x : Sortie η ν}
variable {key : JobKey} {f : Sortie η ν → Sortie η ν}

@[simp] theorem key_first : (first l flight).key = flight.taken.fire.key := rfl

@[simp] theorem key_besideStart : (x.besideStart flight).key = x.key := by
  unfold besideStart
  split <;> rfl

@[simp] theorem recorded_besideStart : (x.besideStart flight).recorded = x.recorded := by
  unfold besideStart
  split <;> rfl

@[simp] theorem flight_besideStart : (x.besideStart flight).flight = x.flight := by
  unfold besideStart
  split <;> rfl

@[simp] theorem key_besideLanding : (x.besideLanding key).key = x.key := by
  unfold besideLanding
  split <;> rfl

@[simp] theorem recorded_besideLanding : (x.besideLanding key).recorded = x.recorded := by
  unfold besideLanding
  split <;> rfl

@[simp] theorem flight_besideLanding : (x.besideLanding key).flight = x.flight := by
  unfold besideLanding
  split <;> rfl

theorem latest_takeOff (hx : x ∈ takeOff l flight air) (hkey : x.key = flight.taken.fire.key) :
    x.latest = flight.taken.fire.refireCount := by
  obtain rfl | hx := List.mem_cons.mp hx
  · rfl
  · obtain ⟨y, hy, rfl⟩ := List.mem_map.mp hx
    rw [key_besideStart] at hkey
    unfold besideStart
    rw [if_pos hkey]

theorem marks_besideLanding {row : JobStatus} (hkey : x.key = key) (begun : row.state ≠ .created)
    (attempts : row.attempts = x.latest) : (x.besideLanding key).Marks row := by
  unfold besideLanding
  rw [if_pos hkey]
  exact ⟨begun, attempts, nofun⟩

private theorem elsewhere_map (hkey : ∀ x, (f x).key = x.key) (hsame : ∀ x, x.key ≠ key → f x = x) :
    Elsewhere key air (air.map f) := by
  intro x hx
  rw [List.mem_map]
  constructor
  · rintro ⟨y, hy, rfl⟩
    rw [hsame y (hkey y ▸ hx)]
    exact hy
  · exact fun hmem => ⟨x, hmem, hsame x hx⟩

theorem elsewhere_takeOff : Elsewhere flight.taken.fire.key air (takeOff l flight air) := by
  intro x hx
  have hne : x ≠ first l flight := fun heq => hx (heq ▸ rfl)
  rw [takeOff, List.mem_cons, or_iff_right hne]
  exact elsewhere_map (fun _ => key_besideStart) (fun _ hne => if_neg hne) x hx

theorem elsewhere_land {front back : List (Sortie η ν)} : Elsewhere x.key (front ++ x :: back)
    ((front ++ back).map (besideLanding x.key)) := by
  intro y hy
  have hne : y ≠ x := fun heq => hy (heq ▸ rfl)
  rw [elsewhere_map (fun _ => key_besideLanding) (fun _ hne => if_neg hne) y hy]
  simp [hne]

end

end Sortie

/-- The ledger knows of the fires in the air. -/
structure Mirrors (air : List (Sortie η ν)) (s : Scheduler η ν) (l : MemoryLedger) : Prop where
  filed : s.Filed
  own : ∀ key row, l.get? key = some row → row.id = key
  flying : ∀ key row, l.get? key = some row → row.state = .running → ∃ x ∈ air, x.key = key
  marked : ∀ x ∈ air, x.recorded → ∃ row, l.get? x.key = some row ∧ x.Marks row

namespace Mirrors

variable {air air' : List (Sortie η ν)} {s s' : Scheduler η ν} {l l' : MemoryLedger}
variable {key : JobKey} {row : JobStatus} {now : Instant}

theorem refile (h : Mirrors air s l) (hs : s'.Filed) : Mirrors air s' l :=
  ⟨hs, h.own, h.flying, h.marked⟩

/-- The row of a job may be written when it says of its fires what the ledger has to. -/
theorem write (h : Mirrors air s l) (same : Sortie.Elsewhere key air air') (hid : row.id = key)
    (hflying : row.state = .running → ∃ x ∈ air', x.key = key)
    (hmarked : ∀ x ∈ air', x.recorded → x.key = key → x.Marks row) :
    Mirrors air' s { rows := l.rows.put key row } where
  filed := h.filed
  own k r hr := by
    change (l.rows.put key row).get? k = some r at hr
    rw [Assoc.get?_put] at hr
    split at hr
    next hkey =>
      cases hr
      exact hid.trans hkey
    · exact h.own k r hr
  flying k r hr hrunning := by
    change (l.rows.put key row).get? k = some r at hr
    rw [Assoc.get?_put] at hr
    split at hr
    next hkey =>
      cases hr
      exact hkey ▸ hflying hrunning
    next hkey =>
      obtain ⟨x, hx, hxkey⟩ := h.flying k r hr hrunning
      exact ⟨x, (same x fun heq => hkey (heq.symm.trans hxkey)).mpr hx, hxkey⟩
  marked x hx hrecorded := by
    change ∃ r, (l.rows.put key row).get? x.key = some r ∧ x.Marks r
    rw [Assoc.get?_put]
    split
    next hkey => exact ⟨row, rfl, hmarked x hx hrecorded hkey.symm⟩
    next hkey => exact h.marked x ((same x fun heq => hkey heq.symm).mp hx) hrecorded

theorem leave (h : Mirrors air s l) (same : Sortie.Elsewhere key air air')
    (hflying : ∀ row, l.get? key = some row → row.state = .running → ∃ x ∈ air', x.key = key)
    (hmarked : ∀ x ∈ air', x.recorded → x.key = key → ∃ row, l.get? key = some row ∧ x.Marks row) :
    Mirrors air' s l where
  filed := h.filed
  own := h.own
  flying k r hr hrunning := by
    by_cases hkey : k = key
    · subst hkey
      exact hflying r hr hrunning
    · obtain ⟨x, hx, hxkey⟩ := h.flying k r hr hrunning
      exact ⟨x, (same x (hxkey ▸ hkey)).mpr hx, hxkey⟩
  marked x hx hrecorded := by
    by_cases hkey : x.key = key
    · rw [hkey]
      exact hmarked x hx hrecorded hkey
    · exact h.marked x ((same x hkey).mp hx) hrecorded

theorem writeGrounded (h : Mirrors air s l) (hground : ∀ x ∈ air, x.key ≠ key) (hid : row.id = key)
    (hstate : row.state ≠ .running) : Mirrors air s { rows := l.rows.put key row } :=
  h.write (fun _ _ => Iff.rfl) hid (fun hrunning => absurd hrunning hstate)
    fun x hx _ hkey => absurd hkey (hground x hx)

theorem create (h : Mirrors air s l) (hground : ∀ x ∈ air, x.key ≠ key) (hid : row.id = key)
    (hstate : row.state ≠ .running) (hl : l.create row = .ok l') : Mirrors air s l' := by
  obtain ⟨-, rfl⟩ := MemoryLedger.create_ok hl
  unfold MemoryLedger.put
  rw [hid]
  exact h.writeGrounded hground hid hstate

theorem merge (h : Mirrors air s l) (hground : ∀ x ∈ air, x.key ≠ key)
    (hrow : l.get? key = some row) (now : Instant) : Mirrors air s (l.merge row now).2 := by
  have hid := h.own key row hrow
  have hstate : row.state ≠ .running := fun hrunning => by
    obtain ⟨x, hx, hkey⟩ := h.flying key row hrow hrunning
    exact hground x hx hkey
  have hmerged : (MemoryLedger.mergedRow (l.get? row.id) row now).id = key ∧
      (MemoryLedger.mergedRow (l.get? row.id) row now).state = row.state := by
    rw [hid, hrow]
    simp only [MemoryLedger.mergedRow]
    split <;> exact ⟨hid, rfl⟩
  unfold MemoryLedger.merge MemoryLedger.put
  simp only [hmerged.1]
  exact h.writeGrounded hground hmerged.1 (hmerged.2 ▸ hstate)

theorem transition {u : StatusUpdate} {r : JobStatus × MemoryLedger} (h : Mirrors air s l)
    (hground : ∀ x ∈ air, x.key ≠ key) (hstate : u.state ≠ .running)
    (hl : l.transition key u now = .ok r) : Mirrors air s r.2 := by
  obtain ⟨row, hrow, hmoved, heq⟩ := MemoryLedger.transition_ok hl
  obtain ⟨hid, hmovedstate, -⟩ := MemoryLedger.apply_ok hmoved
  rw [heq]
  exact h.writeGrounded hground (hid.trans (h.own key row hrow)) (hmovedstate ▸ hstate)

/-- A cancellation is known to be possible at any time. -/
theorem cancel {r : JobStatus × MemoryLedger} (h : Mirrors air s l)
    (hl : l.transition key .cancelled now = .ok r) : Mirrors air s r.2 := by
  obtain ⟨row, hrow, hmoved, heq⟩ := MemoryLedger.transition_ok hl
  obtain ⟨hid, hstate, -, hattempts, -⟩ := MemoryLedger.apply_ok hmoved
  have hcancelled : r.1.state = .cancelled := hstate
  rw [heq]
  refine h.write (fun _ _ => Iff.rfl) (hid.trans (h.own key row hrow))
    (fun hrunning => ?_) fun x hx hrecorded hkey => ?_
  · rw [hcancelled] at hrunning
    cases hrunning
  · obtain ⟨row', hrow', hmarks⟩ := h.marked x hx hrecorded
    rw [hkey, hrow] at hrow'
    cases hrow'
    refine ⟨?_, hattempts.trans hmarks.attempts, fun _ => .inl hcancelled⟩
    rw [hcancelled]
    exact JobState.noConfusion

end Mirrors

/-- What everyone else may do while these fires are in the air: anything that the ledger does not
notice and that leaves the jobs of the scheduler under their keys, register jobs that have no fire
in the air, and cancel any job. -/
inductive Site.Yields (site : Site σ η ν) (air : List (Sortie η ν)) :
    {α : Type} → Act σ α → Prop where
  | apart {α : Type} {a : Act σ α} (h : site.Apart a) : site.Yields air a
  | bind {α β : Type} {a : Act σ α} {f : α → Act σ β} (ha : site.Yields air a)
      (hf : ∀ x, site.Yields air (f x)) : site.Yields air (a >>= f)
  | schedule {α : Type} {step : Scheduler η ν → α × Scheduler η ν}
      (h : ∀ s, s.Filed → (step s).2.Filed) : site.Yields air (site.scheduler.run step)
  | register (definition : JobDefinition) (trigger : Option Trigger)
      (hground : ∀ x ∈ air, x.key ≠ definition.key) :
      site.Yields air (Registration.scheduleJob site.book site.service definition trigger)
  | refuse (key : JobKey) (cause : SchedulerError) (hground : ∀ x ∈ air, x.key ≠ key) :
      site.Yields air (Registration.failStatus site.book key cause)
  | cancel (key : JobKey) : site.Yields air (site.book.cancel key)

namespace Site.Yields

variable {site : Site σ η ν} {air : List (Sortie η ν)} {a : Act σ α}

theorem still (h : ∀ h, (a h).2.app = h.app) : site.Yields air a := .apart (site.apart_still h)

theorem composes (site : Site σ η ν) (air : List (Sortie η ν)) : Composes (site.Yields air) :=
  ⟨still, bind⟩

theorem pure (x : α) : site.Yields air (Pure.pure x : Act σ α) := still fun _ => rfl

theorem attempt {step : Scheduler η ν → Except SchedulerError (Scheduler η ν)}
    (h : ∀ s s', s.Filed → step s = .ok s' → s'.Filed) :
    site.Yields air (Scheduler.attempt site.scheduler step) := by
  refine schedule fun s hs => ?_
  cases hstep : step s with
  | error e => exact hs
  | ok s' => exact h s s' hs hstep

theorem addMatcher (name : String) (key : JobKey) :
    site.Yields air (site.service.addMatcher name key) := attempt fun _ _ h hs => h.addMatcher hs

theorem scheduleJob (definition : JobDefinition) (trigger : Trigger) :
    site.Yields air (site.service.scheduleJob definition trigger) := by
  apply (attempt fun _ _ h hs => h.scheduleJob hs).bind
  intro r
  cases r with
  | error e => exact pure _
  | ok _ => exact (still fun _ => rfl).bind fun _ => pure _

theorem addJob (definition : JobDefinition) (replace : Bool) :
    site.Yields air (site.service.addJob definition replace) := attempt fun _ _ h hs => h.addJob hs

theorem triggerNow (key : JobKey) (data : TriggerData) :
    site.Yields air (site.service.triggerNow key data) :=
  (still fun _ => rfl).bind fun _ => attempt fun _ _ h hs => h.triggerNow hs

theorem deleteJob (key : JobKey) : site.Yields air (site.service.deleteJob key) :=
  schedule fun _ h => h.delete key

theorem submitNow (job : Job σ) (definition : JobDefinition)
    (hground : ∀ x ∈ air, x.key ≠ definition.key)
    (hcheck : ∀ row, site.Yields air (job.isSchedulable site.book row)) :
    site.Yields air (Registration.submitNow site.book site.service job definition) :=
  (composes site air).submitNow hcheck (register definition none hground) (triggerNow _ _)
    fun cause => refuse _ cause hground

theorem keeps (ha : site.Yields air a) : site.Keeps (Mirrors air) a := by
  have registers : ∀ key, (∀ x ∈ air, x.key ≠ key) →
      Triple.Registers key (Mirrors air) (Mirrors air) := fun key hground =>
    { weaken := fun s l h => h
      matched := fun s s' l h hs => h.refile (h.filed.addMatcher hs)
      created := fun s l l' row h hid hstate hl => h.create hground hid hstate hl
      merged := fun s l row now h hrow => h.merge hground hrow now
      scheduled := fun s s' l definition trigger h _ hs => h.refile (h.filed.scheduleJob hs)
      added := fun s s' l definition h _ hs => h.refile (h.filed.addJob hs)
      refused := fun s l cause now r h hl => h.transition hground JobState.noConfusion hl }
  induction ha with
  | apart h => exact h.keeps
  | bind _ _ ha hf => exact ha.after hf
  | schedule h => exact Triple.onScheduler fun s l hl => hl.refile (h s hl.filed)
  | register definition trigger hground =>
    exact Triple.scheduleJob (registers definition.key hground) trigger
  | refuse key cause hground => exact Triple.failStatus (registers key hground) cause
  | cancel key => exact Triple.transition fun s l now r hl hr => hl.cancel hr

end Site.Yields

end JobEngine
