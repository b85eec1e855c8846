import JobEngine.Event.Broadcast
import JobEngine.Proofs.Queue
/-! What a bus in memory hands out. Whatever is done with it, each subscription has received, or has
waiting, just the messages published since it began; the history is the last of all messages, up to
its limit; and a batch comes to the same as its messages published one by one. -/

namespace JobEngine

namespace Broadcast

variable {μ : Type}

/-! What a bus does with messages. -/

theorem has_of_get? {queues : Assoc Nat (List μ)} {id : Nat} {waiting : List μ}
    (h : queues.get? id = some waiting) : queues.has id := by
  unfold Assoc.has
  rw [h]
  rfl

theorem sendAll_audience (m : μ) (audience : List Nat) (queues : Assoc Nat (List μ)) :
    (sendAll m audience queues).1 = audience.filter (queues.has ·) := by
  induction audience generalizing queues with
  | nil => rfl
  | cons first rest ih =>
    unfold sendAll send?
    cases hfirst : queues.get? first with
    | none =>
      have hgone : queues.has first = false := by
        unfold Assoc.has
        rw [hfirst]
        rfl
      rw [List.filter_cons_of_neg (by rw [hgone]; exact Bool.false_ne_true)]
      exact ih queues
    | some waiting =>
      have hlive : queues.has first := has_of_get? hfirst
      have hsame : ∀ id, (queues.put first (waiting ++ [m])).has id = queues.has id := by
        intro id
        apply Bool.eq_iff_iff.mpr
        rw [Assoc.has_put]
        exact or_iff_right_of_imp fun heq => heq ▸ hlive
      rw [List.filter_cons_of_pos hlive]
      refine congrArg (first :: ·) ((ih _).trans ?_)
      simp only [hsame]

theorem sendAll_queues (m : μ) {audience : List Nat} (distinct : audience.Nodup)
    (queues : Assoc Nat (List μ)) (id : Nat) :
    (sendAll m audience queues).2.get? id =
      if id ∈ audience then (queues.get? id).map (· ++ [m]) else queues.get? id := by
  induction audience generalizing queues with
  | nil => rfl
  | cons first rest ih =>
    obtain ⟨hfirst, hrest⟩ := List.nodup_cons.mp distinct
    unfold sendAll send?
    cases hqueue : queues.get? first with
    | none =>
      refine (ih hrest queues).trans ?_
      by_cases hid : id = first
      · subst hid
        simp [hfirst, hqueue]
      · simp [hid]
    | some waiting =>
      refine (ih hrest _).trans ?_
      rw [Assoc.get?_put]
      by_cases hid : id = first
      · subst hid
        simp [hfirst, hqueue]
      · simp [hid, Ne.symm hid]

def circulate (messages : List μ) (audience : List Nat) (queues : Assoc Nat (List μ)) :
    List Nat × Assoc Nat (List μ) :=
  messages.foldl (fun r m => sendAll m r.1 r.2) (audience, queues)

def kept (limit : Option Nat) (messages : List μ) : List μ :=
  match limit with
  | none => messages
  | some n => lastOf n messages

theorem foldl_spread (b : Broadcast μ) (messages : List μ) :
    messages.foldl spread b =
      { b with
        audience := (circulate messages b.audience b.queues).1
        queues := (circulate messages b.audience b.queues).2
        history := b.history ++ messages } := by
  induction messages generalizing b with
  | nil => simp [circulate]
  | cons m rest ih =>
    rw [List.foldl_cons, ih]
    simp [spread, circulate]

theorem deliver_eq (b : Broadcast μ) (messages : List μ) :
    b.deliver messages =
      { b with
        audience := (circulate messages b.audience b.queues).1
        queues := (circulate messages b.audience b.queues).2
        history := kept b.historyLimit (b.history ++ messages) } := by
  unfold deliver trim kept
  rw [foldl_spread]
  cases b.historyLimit <;> simp

@[simp] private theorem lastOf_append (n : Nat) (front back : List μ) :
    lastOf n (lastOf n front ++ back) = lastOf n (front ++ back) := by
  unfold lastOf
  rw [← List.drop_append_of_le_length (Nat.sub_le _ _), List.drop_drop]
  congr 1
  simp only [List.length_drop, List.length_append]
  omega

@[simp] private theorem kept_append (limit : Option Nat) (front back : List μ) :
    kept limit (kept limit front ++ back) = kept limit (front ++ back) := by
  cases limit with
  | none => rfl
  | some n => exact lastOf_append n front back

private theorem circulate_append (front back : List μ) (audience : List Nat)
    (queues : Assoc Nat (List μ)) :
    circulate (front ++ back) audience queues =
      circulate back (circulate front audience queues).1 (circulate front audience queues).2 :=
  List.foldl_append

private theorem deliver_append (b : Broadcast μ) (front back : List μ) :
    b.deliver (front ++ back) = (b.deliver front).deliver back := by
  simp only [deliver_eq, circulate_append, kept_append, List.append_assoc]

private theorem deliver_cons (b : Broadcast μ) (m : μ) (rest : List μ) :
    b.deliver (m :: rest) = (b.deliver [m]).deliver rest := b.deliver_append [m] rest

@[simp] private theorem subscribed_deliver (b : Broadcast μ) (messages : List μ) :
    (b.deliver messages).subscribed = b.subscribed := by rw [deliver_eq]

theorem history_deliver (b : Broadcast μ) (messages : List μ) :
    (b.deliver messages).historyLimit = b.historyLimit ∧
      (b.deliver messages).history = kept b.historyLimit (b.history ++ messages) := by
  rw [deliver_eq]
  exact ⟨rfl, rfl⟩

/-! What is kept up, whatever is done with a bus. -/

/-- Messages are sent to each subscription that has not ended, and no more than once. -/
structure Tuned (audience : List Nat) (queues : Assoc Nat (List μ)) : Prop where
  distinct : audience.Nodup
  heard : ∀ id, queues.has id → id ∈ audience

section

variable {audience : List Nat} {queues : Assoc Nat (List μ)}

theorem Tuned.get?_sendAll (tuned : Tuned audience queues) (m : μ) (id : Nat) :
    (sendAll m audience queues).2.get? id = (queues.get? id).map (· ++ [m]) := by
  rw [sendAll_queues m tuned.distinct]
  split
  · rfl
  next hother =>
    cases hqueue : queues.get? id with
    | none => rfl
    | some waiting => exact absurd (tuned.heard id (has_of_get? hqueue)) hother

theorem Tuned.sendAll (tuned : Tuned audience queues) (m : μ) :
    Tuned (sendAll m audience queues).1 (sendAll m audience queues).2 := by
  rw [sendAll_audience]
  refine ⟨tuned.distinct.filter _, fun id hid => ?_⟩
  unfold Assoc.has at hid
  rw [tuned.get?_sendAll, Option.isSome_map] at hid
  exact List.mem_filter.mpr ⟨tuned.heard id hid, hid⟩

theorem Tuned.circulate (tuned : Tuned audience queues) (messages : List μ) :
    let r := circulate messages audience queues
    Tuned r.1 r.2 ∧ (∀ id ∈ r.1, id ∈ audience) ∧
      ∀ id, r.2.get? id = (queues.get? id).map (· ++ messages) := by
  induction messages generalizing audience queues with
  | nil => exact ⟨tuned, fun _ hid => hid, by simp [Broadcast.circulate]⟩
  | cons m rest ih =>
    obtain ⟨htuned, hsubset, hqueues⟩ := ih (tuned.sendAll m)
    refine ⟨htuned, fun id hid => ?_, fun id => ?_⟩
    · have hfirst := hsubset id hid
      rw [sendAll_audience] at hfirst
      exact (List.mem_filter.mp hfirst).1
    · refine (hqueues id).trans ?_
      rw [tuned.get?_sendAll, Option.map_map]
      congr 1
      funext waiting
      simp

end

structure Sound (b : Broadcast μ) : Prop where
  tuned : Tuned b.audience b.queues
  known : ∀ id ∈ b.audience, id < b.subscribed
  bounded : ∀ limit ∈ b.historyLimit, b.history.length ≤ limit

private theorem sound_new (limit : Option Nat) : Sound ({ historyLimit := limit } : Broadcast μ)
    where
  tuned := ⟨List.nodup_nil, fun _ h => nomatch h⟩
  known := nofun
  bounded _ _ := Nat.zero_le _

theorem kept_of_le {limit : Option Nat} {messages : List μ}
    (h : ∀ n ∈ limit, messages.length ≤ n) : kept limit messages = messages := by
  cases limit with
  | none => rfl
  | some n =>
    change messages.drop (messages.length - n) = messages
    rw [Nat.sub_eq_zero_of_le (h n rfl), List.drop_zero]

private theorem length_kept {limit : Option Nat} (messages : List μ) :
    ∀ n ∈ limit, (kept limit messages).length = min n messages.length := by
  rintro n ⟨⟩
  change (messages.drop (messages.length - n)).length = _
  rw [List.length_drop]
  omega

section

variable {b : Broadcast μ} (sound : b.Sound)

include sound

theorem Sound.get?_of_le {id : Nat} (h : b.subscribed ≤ id) : b.queues.get? id = none := by
  cases hqueue : b.queues.get? id with
  | none => rfl
  | some waiting =>
    have hheard : id ∈ b.audience := sound.tuned.heard id (has_of_get? hqueue)
    exact absurd (sound.known id hheard) (Nat.not_lt.mpr h)

@[simp] theorem Sound.deliver_nil : b.deliver [] = b := by
  rw [deliver_eq, List.append_nil, kept_of_le sound.bounded]
  rfl

theorem Sound.deliver (messages : List μ) : (b.deliver messages).Sound := by
  obtain ⟨htuned, hsubset, -⟩ := sound.tuned.circulate messages
  rw [deliver_eq]
  refine ⟨htuned, fun id hid => sound.known id (hsubset id hid), fun limit hlimit => ?_⟩
  rw [length_kept _ limit hlimit]
  exact Nat.min_le_left _ _

theorem Sound.get?_deliver (messages : List μ) (id : Nat) :
    (b.deliver messages).queues.get? id = (b.queues.get? id).map (· ++ messages) := by
  rw [deliver_eq]
  exact (sound.tuned.circulate messages).2.2 id

theorem Sound.subscribe : b.subscribe.2.Sound := by
  have hnew : b.subscribed ∉ b.audience := fun h => Nat.lt_irrefl _ (sound.known _ h)
  refine ⟨⟨?_, fun id hid => ?_⟩, fun id hid => ?_, sound.bounded⟩
  · refine List.nodup_append.mpr ⟨sound.tuned.distinct, List.pairwise_singleton _ _, ?_⟩
    rintro id hid _ hlast rfl
    rw [List.mem_singleton.mp hlast] at hid
    exact hnew hid
  · rw [Broadcast.subscribe, Assoc.has_put] at hid
    exact List.mem_append.mpr (hid.symm.imp (sound.tuned.heard id)
      fun heq => List.mem_singleton.mpr heq.symm)
  · rcases List.mem_append.mp hid with hid | hid
    · exact Nat.lt_succ_of_lt (sound.known id hid)
    · rw [List.mem_singleton.mp hid]
      exact Nat.lt_succ_self _

theorem Sound.unsubscribe (id : Nat) : (b.unsubscribe id).Sound := by
  refine ⟨⟨sound.tuned.distinct, fun other hother => ?_⟩, sound.known, sound.bounded⟩
  exact sound.tuned.heard _ ((Assoc.has_erase _ _ _).mp hother).2

end

def Taken (id : Nat) (b b' : Broadcast μ) : Prop :=
  b' = b ∨ ∃ waiting, b.queues.has id ∧ b' = { b with queues := b.queues.put id waiting }

theorem drain_taken (b : Broadcast μ) (id : Nat) : Taken id b (b.drain id).2 := by
  unfold drain
  split
  · exact .inl rfl
  next hqueue => exact .inr ⟨_, has_of_get? hqueue, rfl⟩

theorem receive_taken (b : Broadcast μ) (id : Nat) : Taken id b (b.receive id).2 := by
  unfold receive
  split
  next hqueue => exact .inr ⟨_, has_of_get? hqueue, rfl⟩
  · exact .inl rfl

namespace Taken

variable {id other : Nat} {b b' : Broadcast μ} (taken : Taken id b b')

include taken

theorem frame : b'.subscribed = b.subscribed ∧ b'.historyLimit = b.historyLimit ∧
    b'.history = b.history := by
  obtain rfl | ⟨waiting, -, rfl⟩ := taken <;> exact ⟨rfl, rfl, rfl⟩

theorem get?_of_ne (hother : id ≠ other) : b'.queues.get? other = b.queues.get? other := by
  obtain rfl | ⟨waiting, -, rfl⟩ := taken
  · rfl
  · exact Assoc.get?_put_of_ne _ _ hother

theorem sound (sound : b.Sound) : b'.Sound := by
  obtain rfl | ⟨waiting, hlive, rfl⟩ := taken
  · exact sound
  · refine ⟨⟨sound.tuned.distinct, fun other hother => ?_⟩, sound.known, sound.bounded⟩
    rcases (Assoc.has_put _ _ _ _).mp hother with rfl | hother
    · exact sound.tuned.heard _ hlive
    · exact sound.tuned.heard _ hother

end Taken

/-! What can be done with a bus, and what comes of it. -/

inductive Use (μ : Type) where
  | publish (m : μ)
  | batch (ms : List μ)
  | subscribe
  | drain (id : Nat)
  | receive (id : Nat)
  | unsubscribe (id : Nat)

inductive Reply (μ : Type) where
  | published (answer : Except String Unit)
  | batched (answer : Except BatchFailure Nat)
  | subscribed (id : Nat)
  | received (ms : List μ)
  | unsubscribed

def use : Use μ → Act (Broadcast μ) (Reply μ)
  | .publish m => return .published (← (service Part.whole).publish m)
  | .batch ms => return .batched (← (service Part.whole).publishBatch ms)
  | .subscribe => return .subscribed (← Part.whole.run Broadcast.subscribe)
  | .drain id => return .received (← Part.whole.run (·.drain id))
  | .receive id => return .received (← Part.whole.run (·.receive id)).toList
  | .unsubscribe id => do
    Part.whole.modify (·.unsubscribe id)
    return .unsubscribed

def useAll : List (Use μ) → Act (Broadcast μ) (List (Reply μ))
  | [] => pure []
  | u :: rest => do
    let first ← use u
    return first :: (← useAll rest)

def Use.messages : Use μ → List μ
  | .publish m => [m]
  | .batch ms => ms
  | _ => []

def published (uses : List (Use μ)) : List μ := uses.flatMap Use.messages

def Use.subscribes : Use μ → Bool
  | .subscribe => true
  | _ => false

def handed (id : Nat) : Use μ × Reply μ → List μ
  | (.drain other, .received ms) | (.receive other, .received ms) => if other = id then ms else []
  | _ => []

/-- What was handed out of a subscription, by the replies to all that was done. -/
def received (id : Nat) (uses : List (Use μ)) (replies : List (Reply μ)) : List μ :=
  (uses.zip replies).flatMap (handed id)

section

variable {id : Nat} {u : Use μ} {h : Host (Broadcast μ)}

private theorem use_subscribed : (use u h).2.app.subscribed =
    h.app.subscribed + if u.subscribes then 1 else 0 := by
  cases u with
  | publish m => exact subscribed_deliver h.app [m]
  | batch ms => exact subscribed_deliver h.app ms
  | subscribe => rfl
  | drain other => exact (drain_taken h.app other).frame.1
  | receive other => exact (receive_taken h.app other).frame.1
  | unsubscribe other => rfl

theorem use_history (sound : h.app.Sound) :
    (use u h).2.app.historyLimit = h.app.historyLimit ∧
      (use u h).2.app.history = kept h.app.historyLimit (h.app.history ++ u.messages) := by
  have hsame : h.app.history = kept h.app.historyLimit (h.app.history ++ []) := by
    rw [List.append_nil, kept_of_le sound.bounded]
  cases u with
  | publish m => exact history_deliver h.app [m]
  | batch ms => exact history_deliver h.app ms
  | subscribe => exact ⟨rfl, hsame⟩
  | drain other => exact (drain_taken h.app other).frame.2.imp_right fun heq => heq.trans hsame
  | receive other => exact (receive_taken h.app other).frame.2.imp_right fun heq => heq.trans hsame
  | unsubscribe other => exact ⟨rfl, hsame⟩

theorem use_sound (sound : h.app.Sound) : (use u h).2.app.Sound := by
  cases u with
  | publish m => exact sound.deliver [m]
  | batch ms => exact sound.deliver ms
  | subscribe => exact sound.subscribe
  | drain other => exact (drain_taken h.app other).sound sound
  | receive other => exact (receive_taken h.app other).sound sound
  | unsubscribe other => exact sound.unsubscribe other

theorem handed_unknown (sound : h.app.Sound) (hlater : h.app.subscribed ≤ id) :
    handed id (u, (use u h).1) = [] := by
  have hnone : h.app.queues.get? id = none := sound.get?_of_le hlater
  cases u with
  | drain other =>
    change (if other = id then (h.app.drain other).1 else []) = []
    split
    next heq =>
      subst heq
      unfold drain
      rw [hnone]
    · rfl
  | receive other =>
    change (if other = id then (h.app.receive other).1.toList else []) = []
    split
    next heq =>
      subst heq
      unfold receive
      rw [hnone]
      rfl
    · rfl
  | _ => rfl

/-- What was waiting in a subscription and what is published to it is handed out, or waits. -/
theorem use_queue (sound : h.app.Sound) {waiting : List μ}
    (hwaiting : h.app.queues.get? id = some waiting) (hstays : u ≠ .unsubscribe id) :
    ∃ left, (use u h).2.app.queues.get? id = some left ∧
      handed id (u, (use u h).1) ++ left = waiting ++ u.messages := by
  cases u with
  | publish m =>
    refine ⟨waiting ++ [m], ?_, rfl⟩
    exact (sound.get?_deliver [m] id).trans (congrArg (Option.map _) hwaiting)
  | batch ms =>
    refine ⟨waiting ++ ms, ?_, rfl⟩
    exact (sound.get?_deliver ms id).trans (congrArg (Option.map _) hwaiting)
  | subscribe =>
    refine ⟨waiting, ?_, (List.append_nil waiting).symm⟩
    have hbegun : h.app.subscribed ≠ id := fun heq =>
      nomatch (sound.get?_of_le (Nat.le_of_eq heq)).symm.trans hwaiting
    exact (Assoc.get?_put_of_ne _ _ hbegun).trans hwaiting
  | drain other =>
    change ∃ left, (h.app.drain other).2.queues.get? id = some left ∧
      (if other = id then (h.app.drain other).1 else []) ++ left = waiting ++ []
    by_cases heq : other = id
    · subst heq
      unfold drain
      rw [hwaiting, if_pos rfl]
      exact ⟨[], Assoc.get?_put_self _ _ _, rfl⟩
    · rw [if_neg heq]
      exact ⟨waiting, ((drain_taken h.app other).get?_of_ne heq).trans hwaiting,
        (List.append_nil waiting).symm⟩
  | receive other =>
    change ∃ left, (h.app.receive other).2.queues.get? id = some left ∧
      (if other = id then (h.app.receive other).1.toList else []) ++ left = waiting ++ []
    by_cases heq : other = id
    · subst heq
      unfold receive
      rw [hwaiting, if_pos rfl]
      cases waiting with
      | nil => exact ⟨[], hwaiting, rfl⟩
      | cons m rest => exact ⟨rest, Assoc.get?_put_self _ _ _, (List.append_nil _).symm⟩
    · rw [if_neg heq]
      exact ⟨waiting, ((receive_taken h.app other).get?_of_ne heq).trans hwaiting,
        (List.append_nil waiting).symm⟩
  | unsubscribe other =>
    have hne : other ≠ id := fun heq => hstays (congrArg Use.unsubscribe heq)
    exact ⟨waiting, (Assoc.get?_erase_of_ne _ hne).trans hwaiting, (List.append_nil waiting).symm⟩

end

/-! One thing after another. -/

section

variable {id : Nat} {uses front back : List (Use μ)} {h : Host (Broadcast μ)}

private theorem length_useAll (uses : List (Use μ)) (h : Host (Broadcast μ)) :
    (useAll uses h).1.length = uses.length := by
  induction uses generalizing h with
  | nil => rfl
  | cons u rest ih => exact congrArg (· + 1) (ih (use u h).2)

theorem useAll_append (front back : List (Use μ)) (h : Host (Broadcast μ)) :
    useAll (front ++ back) h =
      ((useAll front h).1 ++ (useAll back (useAll front h).2).1,
        (useAll back (useAll front h).2).2) := by
  induction front generalizing h with
  | nil => rfl
  | cons u rest ih =>
    change ((use u h).1 :: (useAll (rest ++ back) (use u h).2).1,
      (useAll (rest ++ back) (use u h).2).2) = _
    rw [ih]
    rfl

private theorem reply_at (front : List (Use μ)) (u : Use μ) (back : List (Use μ))
    (h : Host (Broadcast μ)) :
    (useAll (front ++ u :: back) h).1[front.length]? = some (use u (useAll front h).2).1 := by
  rw [useAll_append, ← length_useAll front h, List.getElem?_append_right (Nat.le_refl _),
    Nat.sub_self]
  rfl

theorem received_append :
    received id (front ++ back) (useAll (front ++ back) h).1 =
      received id front (useAll front h).1 ++
        received id back (useAll back (useAll front h).2).1 := by
  unfold received
  rw [useAll_append, List.zip_append (length_useAll front h).symm, List.flatMap_append]

private theorem useAll_sound (sound : h.app.Sound) : (useAll uses h).2.app.Sound := by
  induction uses generalizing h with
  | nil => exact sound
  | cons u rest ih => exact ih (use_sound sound)

private theorem useAll_subscribed :
    (useAll uses h).2.app.subscribed = h.app.subscribed + uses.countP (·.subscribes) := by
  induction uses generalizing h with
  | nil => rfl
  | cons u rest ih =>
    refine (ih (h := (use u h).2)).trans ?_
    rw [use_subscribed, List.countP_cons]
    omega

private theorem useAll_history (sound : h.app.Sound) :
    (useAll uses h).2.app.history = kept h.app.historyLimit (h.app.history ++ published uses) := by
  induction uses generalizing h with
  | nil => exact (congrArg _ (List.append_nil _)).trans (kept_of_le sound.bounded) |>.symm
  | cons u rest ih =>
    obtain ⟨hlimit, hhistory⟩ := use_history (u := u) sound
    refine (ih (use_sound (u := u) sound)).trans ?_
    rw [hlimit, hhistory, kept_append, List.append_assoc]
    rfl

theorem received_unknown (sound : h.app.Sound)
    (hlater : h.app.subscribed + uses.countP (·.subscribes) ≤ id) :
    received id uses (useAll uses h).1 = [] := by
  induction uses generalizing h with
  | nil => rfl
  | cons u rest ih =>
    rw [List.countP_cons] at hlater
    have hrest : (use u h).2.app.subscribed + rest.countP (·.subscribes) ≤ id := by
      rw [use_subscribed]
      omega
    refine List.append_eq_nil_iff.mpr ⟨handed_unknown sound (by omega), ?_⟩
    exact ih (use_sound sound) hrest

theorem useAll_queue (sound : h.app.Sound) {waiting : List μ}
    (hwaiting : h.app.queues.get? id = some waiting) (hstays : .unsubscribe id ∉ uses) :
    ∃ left, (useAll uses h).2.app.queues.get? id = some left ∧
      received id uses (useAll uses h).1 ++ left = waiting ++ published uses := by
  induction uses generalizing h waiting with
  | nil => exact ⟨waiting, hwaiting, (List.append_nil waiting).symm⟩
  | cons u rest ih =>
    rw [List.mem_cons, not_or] at hstays
    obtain ⟨midway, hmidway, hfirst⟩ := use_queue sound hwaiting (Ne.symm hstays.1)
    obtain ⟨left, hleft, hrest⟩ := ih (use_sound sound) hmidway hstays.2
    refine ⟨left, hleft, ?_⟩
    calc received id (u :: rest) (useAll (u :: rest) h).1 ++ left
        = handed id (u, (use u h).1) ++
            (received id rest (useAll rest (use u h).2).1 ++ left) := List.append_assoc _ _ _
      _ = handed id (u, (use u h).1) ++ midway ++ published rest := by
        rw [hrest, List.append_assoc]
      _ = waiting ++ published (u :: rest) := by
        rw [hfirst, List.append_assoc]
        rfl

variable (id) in
theorem useAll_singles (sound : h.app.Sound) (ms : List μ) :
    (useAll (ms.map .publish) h).2 = (use (.batch ms) h).2 ∧
      received id (ms.map .publish) (useAll (ms.map .publish) h).1 = [] := by
  induction ms generalizing h with
  | nil =>
    have hnothing : (use (.batch []) h).2 = { h with app := h.app.deliver [] } := rfl
    rw [hnothing, sound.deliver_nil]
    exact ⟨rfl, rfl⟩
  | cons m rest ih =>
    obtain ⟨hhost, hreceived⟩ := ih (use_sound (u := .publish m) sound)
    refine ⟨hhost.trans ?_, hreceived⟩
    have hcut : { h with app := (h.app.deliver [m]).deliver rest } =
        { h with app := h.app.deliver (m :: rest) } := by
      rw [← deliver_cons]
    exact hcut

end

/-- What a bus owes those who use it. -/
structure Faithful (h : Host (Broadcast μ)) (uses : List (Use μ)) : Prop where
  streams : ∀ before after, uses = before ++ .subscribe :: after →
    let id := before.countP (·.subscribes)
    (useAll uses h).1[before.length]? = some (.subscribed id) ∧
      (.unsubscribe id ∉ after → ∃ waiting,
        (useAll uses h).2.app.queues.get? id = some waiting ∧
          received id uses (useAll uses h).1 ++ waiting = published after)
  complete : h.app.historyLimit = none → (useAll uses h).2.app.history = published uses
  recent : ∀ limit, h.app.historyLimit = some limit →
    (useAll uses h).2.app.history <:+ published uses ∧
      (useAll uses h).2.app.history.length = min limit (published uses).length
  batches : ∀ before ms after, uses = before ++ .batch ms :: after →
    let singles := before ++ ms.map .publish ++ after
    (useAll uses h).1[before.length]? = some (.batched (.ok ms.length)) ∧
      (useAll singles h).2 = (useAll uses h).2 ∧
      ∀ id, received id singles (useAll singles h).1 = received id uses (useAll uses h).1

/-- A bus that starts with nothing is faithful, whatever the limit of its history. -/
theorem broadcast_faithful (limit : Option Nat) (h : Host (Broadcast μ)) (uses : List (Use μ)) :
    Faithful { h with app := { historyLimit := limit } } uses := by
  let start : Host (Broadcast μ) := { h with app := { historyLimit := limit } }
  have sound : start.app.Sound := sound_new limit
  have hhistory : (useAll uses start).2.app.history = kept limit (published uses) :=
    useAll_history sound
  refine ⟨?_, fun hlimit => ?_, fun n hlimit => ?_, ?_⟩
  · rintro before after rfl id
    have midway : (useAll before start).2.app.Sound := useAll_sound sound
    have hid : (useAll before start).2.app.subscribed = id :=
      useAll_subscribed.trans (Nat.zero_add _)
    refine ⟨(reply_at before .subscribe after start).trans ?_, fun hstays => ?_⟩
    · exact congrArg (some ∘ Reply.subscribed) hid
    · let begun := (use .subscribe (useAll before start).2).2
      have hbegun : begun.app.queues.get? id = some [] := by
        rw [← hid]
        exact Assoc.get?_put_self _ _ _
      obtain ⟨waiting, hwaiting, hstream⟩ :=
        useAll_queue (use_sound (u := .subscribe) midway) hbegun hstays
      refine ⟨waiting, ?_, ?_⟩
      · rw [useAll_append]
        exact hwaiting
      · have hearlier : received id before (useAll before start).1 = [] :=
          received_unknown sound (Nat.le_of_eq (Nat.zero_add _))
        rw [received_append, hearlier]
        exact hstream
  · have hnone : limit = none := hlimit
    rw [hhistory, hnone]
    rfl
  · have hsome : limit = some n := hlimit
    rw [hhistory, length_kept _ n (Option.mem_def.mpr hsome), hsome]
    exact ⟨List.drop_suffix _ _, rfl⟩
  · rintro before ms after rfl singles
    have midway : (useAll before start).2.app.Sound := useAll_sound sound
    have hsingles : singles = before ++ (ms.map .publish ++ after) := List.append_assoc _ _ _
    rw [hsingles]
    refine ⟨reply_at before (.batch ms) after start, ?_, fun id => ?_⟩
    · obtain ⟨hhost, -⟩ := useAll_singles 0 midway ms
      rw [useAll_append, useAll_append, useAll_append, hhost]
      rfl
    · obtain ⟨hhost, hnothing⟩ := useAll_singles id midway ms
      rw [received_append, received_append, received_append, hnothing, hhost]
      rfl

/-- The subscription that goes on gets all that was published, and the history keeps the last. -/
example :
    let uses : List (Use Nat) :=
      [.subscribe, .subscribe, .publish 1, .unsubscribe 0, .batch [2, 3], .drain 1]
    let r := useAll uses { clock := .epoch, app := { historyLimit := some 2 } }
    received 1 uses r.1 = [1, 2, 3] ∧ r.2.app.history = [2, 3] := by
  decide

end Broadcast

end JobEngine
