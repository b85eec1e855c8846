import JobEngine.Data.Assoc
import JobEngine.Data.Dict
import JobEngine.Data.Key
/-! Pools per owner, reconciled against the set that the owner should have. A refresh takes a
snapshot, reads the wanted set, and commits only if no other refresh has committed in between, which
a generation number shows. -/

namespace JobEngine

structure RefreshOutcome where
  created : List String := []
  updated : List String := []
  deleted : List String := []
  deriving DecidableEq

def RefreshOutcome.isEmpty (o : RefreshOutcome) : Bool :=
  o.created.isEmpty && o.updated.isEmpty && o.deleted.isEmpty

structure OwnerPools where
  generation : Nat := 0
  /-- The version of each pool. -/
  pools : Dict Nat := Dict.empty

structure PoolStore where
  /-- The pools that each owner should have. -/
  assigned : Assoc TenantKey (Dict Unit) := []
  owners : Assoc TenantKey OwnerPools := []

/-- The owner's pools have been refreshed by someone else. -/
structure AlreadyAdvanced where
  owner : TenantKey

structure PoolSnapshot where
  generation : Nat
  ids : List String

namespace PoolStore

def assign (s : PoolStore) (owner : TenantKey) (ids : List String) : PoolStore :=
  { s with assigned := s.assigned.put owner (Dict.ofList (ids.map (·, ()))) }

def ownerPools (s : PoolStore) (owner : TenantKey) : OwnerPools := (s.owners.get? owner).getD {}

def pools (s : PoolStore) (owner : TenantKey) : Dict Nat := (s.ownerPools owner).pools

def generation (s : PoolStore) (owner : TenantKey) : Nat := (s.ownerPools owner).generation

/-- Raises the generation as if another refresh had committed. -/
def advance (s : PoolStore) (owner : TenantKey) : PoolStore :=
  let o := s.ownerPools owner
  { s with owners := s.owners.put owner { o with generation := o.generation + 1 } }

/-- First step of a refresh. -/
def snapshot (s : PoolStore) (owner : TenantKey) : PoolSnapshot :=
  let o := s.ownerPools owner
  { generation := o.generation, ids := o.pools.keys }

/-- Second step of a refresh: the pools that the owner should have. -/
def wanted (s : PoolStore) (owner : TenantKey) : List String :=
  ((s.assigned.get? owner).getD Dict.empty).keys

/-- What a refresh has to do, in the order of the ids. A lazy one leaves kept pools alone. -/
def plan (current wanted : List String) (lazy : Bool) : RefreshOutcome where
  created := wanted.filter (!current.contains ·)
  updated := if lazy then [] else wanted.filter current.contains
  deleted := current.filter (!wanted.contains ·)

def OwnerPools.apply (o : OwnerPools) (outcome : RefreshOutcome) : OwnerPools :=
  let removed := outcome.deleted.foldl (·.erase ·) o.pools
  let added := outcome.created.foldl (fun d id => d.insert id 0) removed
  let raised := outcome.updated.foldl (fun d id =>
    match d.get? id with
    | some version => d.insert id (version + 1)
    | none => d) added
  { generation := o.generation + 1, pools := raised }

/-- Last step of a refresh: commits the plan made from a snapshot, unless the generation has moved.
-/
def commit (s : PoolStore) (owner : TenantKey) (generation : Nat) (outcome : RefreshOutcome) :
    Except AlreadyAdvanced RefreshOutcome × PoolStore :=
  let o := s.ownerPools owner
  if o.generation = generation then
    (.ok outcome, { s with owners := s.owners.put owner (OwnerPools.apply o outcome) })
  else (.error ⟨owner⟩, s)

/-- A refresh that nothing interrupts. -/
def refresh (s : PoolStore) (owner : TenantKey) (lazy : Bool) :
    Except AlreadyAdvanced RefreshOutcome × PoolStore :=
  let taken := s.snapshot owner
  s.commit owner taken.generation (plan taken.ids (s.wanted owner) lazy)

end PoolStore

end JobEngine
