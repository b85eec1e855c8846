import JobEngine.Pools.Refresh
import JobEngine.Proofs.Contention
/-! What happens to a pool: it is created, gets a new version or is deleted. A refresh does at most
one of these to each pool, and its outcome says which. -/

namespace JobEngine

inductive PoolChange where
  | created
  | modified
  | deleted
  deriving DecidableEq

namespace PoolChange

def between (before after : Option Nat) : Option PoolChange :=
  match before, after with
  | none, some _ => some .created
  | some old, some new => if old = new then none else some .modified
  | some _, none => some .deleted
  | none, none => none

@[simp] theorem between_self (version : Option Nat) : between version version = none := by
  cases version with
  | none => rfl
  | some _ => exact if_pos rfl

def apply (version : Option Nat) : PoolChange → Option Nat
  | .created => some 0
  | .modified => version.map (· + 1)
  | .deleted => none

end PoolChange

/-- What a refresh that comes to this does to a pool. -/
def RefreshOutcome.changes (o : RefreshOutcome) (id : String) : List PoolChange :=
  (if id ∈ o.created then [.created] else []) ++ (if id ∈ o.updated then [.modified] else []) ++
    if id ∈ o.deleted then [.deleted] else []

namespace PoolStore

def version (s : PoolStore) (owner : TenantKey) (id : String) : Option Nat :=
  (s.pools owner).get? id

def changesTo (s s' : PoolStore) (owner : TenantKey) (id : String) : List PoolChange :=
  (PoolChange.between (s.version owner id) (s'.version owner id)).toList

theorem version_congr {s t : PoolStore} (h : s.pools = t.pools) : s.version = t.version := by
  funext owner id
  unfold version
  rw [h]

theorem changesTo_congr {s s' t t' : PoolStore} (h : s.pools = t.pools)
    (h' : s'.pools = t'.pools) : s.changesTo s' = t.changesTo t' := by
  unfold changesTo
  rw [version_congr h, version_congr h']

theorem changesTo_of_same {s s' : PoolStore} (h : s'.pools = s.pools) (owner : TenantKey)
    (id : String) : s.changesTo s' owner id = [] := by
  unfold changesTo
  rw [version_congr h, PoolChange.between_self]
  rfl

variable {id : String}

@[simp] private theorem get?_eraseAll (ids : List String) (d : Dict Nat) :
    (ids.foldl (·.erase ·) d).get? id = if id ∈ ids then none else d.get? id := by
  induction ids generalizing d with
  | nil => rfl
  | cons first rest ih =>
    rw [List.foldl_cons, ih, Dict.get?_erase]
    by_cases h : first = id
    · simp [h]
    · simp [h, Ne.symm h]

@[simp] private theorem get?_createAll (ids : List String) (d : Dict Nat) :
    (ids.foldl (fun d id => d.insert id 0) d).get? id =
      if id ∈ ids then some 0 else d.get? id := by
  induction ids generalizing d with
  | nil => rfl
  | cons first rest ih =>
    rw [List.foldl_cons, ih, Dict.get?_insert]
    by_cases h : first = id
    · simp [h]
    · simp [h, Ne.symm h]

def bump (d : Dict Nat) (id : String) : Dict Nat :=
  match d.get? id with
  | some version => d.insert id (version + 1)
  | none => d

private theorem get?_bump (d : Dict Nat) (first : String) : (bump d first).get? id =
    if first = id then (d.get? id).map (· + 1) else d.get? id := by
  unfold bump
  by_cases h : first = id
  · subst h
    cases hversion : d.get? first <;> simp [hversion]
  · cases d.get? first <;> simp [h]

@[simp] theorem get?_bumpAll {ids : List String} (distinct : ids.Nodup) (d : Dict Nat) :
    (ids.foldl bump d).get? id = if id ∈ ids then (d.get? id).map (· + 1) else d.get? id := by
  induction ids generalizing d with
  | nil => rfl
  | cons first rest ih =>
    obtain ⟨hfirst, hrest⟩ := List.nodup_cons.mp distinct
    rw [List.foldl_cons, ih hrest, get?_bump]
    by_cases h : first = id
    · subst h
      simp [hfirst]
    · simp [h, Ne.symm h]

private theorem apply_pools (o : OwnerPools) (outcome : RefreshOutcome) :
    (OwnerPools.apply o outcome).pools =
      outcome.updated.foldl bump (outcome.created.foldl (fun d id => d.insert id 0)
        (outcome.deleted.foldl (·.erase ·) o.pools)) := rfl

theorem nodup_updated (current : List String) (wanted : Dict Unit) (lazy : Bool) :
    (plan current wanted.keys lazy).updated.Nodup := by
  unfold plan
  cases lazy with
  | true => exact List.nodup_nil
  | false => exact wanted.nodup_keys.filter _

theorem version_apply (o : OwnerPools) (wanted : Dict Unit) (lazy : Bool) :
    (OwnerPools.apply o (plan o.pools.keys wanted.keys lazy)).pools.get? id =
      if id ∈ wanted.keys then
        match o.pools.get? id with
        | some version => some (if lazy then version else version + 1)
        | none => some 0
      else none := by
  rw [apply_pools, get?_bumpAll (nodup_updated _ wanted lazy), get?_createAll, get?_eraseAll]
  have hcurrent : id ∈ o.pools.keys ↔ (o.pools.get? id).isSome := o.pools.mem_keys
  cases hversion : o.pools.get? id <;> rw [hversion] at hcurrent <;>
    by_cases hwanted : id ∈ wanted.keys <;> cases lazy <;> simp [plan, hcurrent, hwanted]

theorem changes_apply (o : OwnerPools) (wanted : Dict Unit) (lazy : Bool) :
    let outcome := plan o.pools.keys wanted.keys lazy
    outcome.changes id = (PoolChange.between (o.pools.get? id)
      ((OwnerPools.apply o outcome).pools.get? id)).toList := by
  intro outcome
  rw [version_apply]
  unfold outcome RefreshOutcome.changes
  have hcurrent : id ∈ o.pools.keys ↔ (o.pools.get? id).isSome := o.pools.mem_keys
  cases hversion : o.pools.get? id <;> rw [hversion] at hcurrent <;>
    by_cases hwanted : id ∈ wanted.keys <;> cases lazy <;>
      simp [plan, hcurrent, hwanted, PoolChange.between]

private theorem apply_between (o : OwnerPools) (wanted : Dict Unit) (lazy : Bool) :
    let after := (OwnerPools.apply o (plan o.pools.keys wanted.keys lazy)).pools.get? id
    (PoolChange.between (o.pools.get? id) after).toList.foldl PoolChange.apply (o.pools.get? id) =
      after := by
  intro after
  unfold after
  rw [version_apply]
  cases o.pools.get? id <;> by_cases hwanted : id ∈ wanted.keys <;> cases lazy <;>
    simp [hwanted, PoolChange.between, PoolChange.apply]

def outcomeOf (s : PoolStore) (owner : TenantKey) (lazy : Bool) : RefreshOutcome :=
  plan (s.pools owner).keys (s.wanted owner) lazy

/-- What a refresh leaves in the store. -/
def refreshed (s : PoolStore) (owner : TenantKey) (lazy : Bool) : PoolStore :=
  (s.refresh owner lazy).2

theorem pools_refreshed (s : PoolStore) (owner other : TenantKey) (lazy : Bool) :
    (s.refreshed owner lazy).pools other =
      if owner = other then (OwnerPools.apply (s.ownerPools owner) (s.outcomeOf owner lazy)).pools
      else s.pools other := by
  unfold refreshed
  rw [refresh_eq]
  unfold pools ownerPools
  rw [Assoc.get?_put]
  split <;> rfl

theorem changes_refreshed (s : PoolStore) (owner other : TenantKey) (lazy : Bool) :
    s.changesTo (s.refreshed owner lazy) other id =
      if owner = other then (s.outcomeOf owner lazy).changes id else [] := by
  unfold changesTo version
  rw [pools_refreshed]
  by_cases howner : owner = other
  · subst howner
    rw [if_pos rfl, if_pos rfl]
    exact (changes_apply (s.ownerPools owner) _ lazy).symm
  · rw [if_neg howner, if_neg howner, PoolChange.between_self]
    rfl

theorem version_refreshed (s : PoolStore) (owner other : TenantKey) (lazy : Bool) :
    (s.changesTo (s.refreshed owner lazy) other id).foldl PoolChange.apply (s.version other id) =
      (s.refreshed owner lazy).version other id := by
  unfold changesTo version
  rw [pools_refreshed]
  by_cases howner : owner = other
  · subst howner
    rw [if_pos rfl]
    exact apply_between (s.ownerPools owner) _ lazy
  · rw [if_neg howner, PoolChange.between_self]
    rfl

end PoolStore

end JobEngine
