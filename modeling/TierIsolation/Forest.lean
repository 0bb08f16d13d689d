import TierIsolation.LookupPolicy
import TierIsolation.Opener
import TierIsolation.Symbol

/-!
# Forests of resolvers

A resolver searches its own entries for a name, and asks its parent or, if it has none, its host.
A `Forest` is a list of resolvers, each with a parent earlier in the list or without one, and a list
of hosts, which several resolvers may share. Every resolver has an opener of its own, and so has the
one behind a host. Where a resolver turns for a name that it does not look for itself is its
`source`; sources stand lower in the forest (`Forest.rank_source`), so asking one after the other
comes to an end.
-/

namespace TierIsolation

/-- Whether a resolver without parent asks the host for a name it may search for itself. -/
inductive HostFallback
  /-- It asks the host. -/
  | delegate
  /-- It does not; only names that are for the parent alone reach the host. -/
  | isolated
  deriving DecidableEq, Repr, Inhabited

def HostFallback.inspect : HostFallback → String
  | delegate => "Delegate"
  | isolated => "Isolated"

structure Resolver where
  name : String
  searchPath : List Entry := []
  /-- The number of the parent. -/
  parent : Option Nat := none
  /-- The number of the host, which is asked when there is no parent. Without one, the host has
  nothing. -/
  host : Option Nat := none
  fallback : HostFallback := .delegate
  policy : LookupPolicy := {}
  /-- What the path of a symbol ends in. -/
  suffix : String := ".class"

instance : Inhabited Resolver := ⟨{ name := "" }⟩

/-- What a resolver without parent asks. -/
inductive Host
  | empty
  | table (name : String) (symbols : Table ByteArray)
  /-- Has a search path of its own, and a resolver for it. -/
  | entries (name : String) (searchPath : List Entry)

namespace Host

def name : Host → String
  | empty => "empty-host"
  | table name _ => name
  | entries name _ => name

/-- The symbol of a host with a table. -/
def symbol (name symbol : String) (bytes : ByteArray) : Symbol where
  name := symbol
  origin := .directory ("host/" ++ name)
  resolver := name
  bytes := bytes

/-- The resolver behind a host; only one with a search path has anything to search. -/
def resolver : Host → Resolver
  | entries name searchPath => { name, searchPath, fallback := .isolated }
  | other => { name := other.name, fallback := .isolated }

end Host

/-- Where a resolver turns for a name. -/
inductive Source
  | resolver (p : Place)
  | table (name : String) (symbols : Table ByteArray)
  | nothing

structure Forest where
  resolvers : List Resolver
  hosts : List Host := []
  /-- The opener of the resolver at a place. Several places may have the same one: each answers by
  all that happened in the forest, and every event tells at which place. -/
  opener : Place → Opener

namespace Forest

variable (F : Forest)

def host (number : Nat) : Host := (F.hosts[number]?).getD .empty

def resolver : Place → Resolver
  | .host k => (F.host k).resolver
  | .resolver i => (F.resolvers[i]?).getD default

/-- The place of the parent of a resolver; it is earlier in the list. -/
def parent? : Place → Option Place
  | .host _ => none
  | .resolver i =>
    match (F.resolver (.resolver i)).parent with
    | some j => if j < i then some (.resolver j) else none
    | none => none

/-- Where a host turns for a name. -/
def hostSource (number : Nat) : Source :=
  match F.host number with
  | .empty => .nothing
  | .table name symbols => .table name symbols
  | .entries .. => .resolver (.host number)

/-- Does a resolver without parent ask its host for a name of this mode? -/
def asksHost (r : Resolver) (mode : LookupMode) : Bool :=
  mode == .parentOnly || r.fallback == .delegate

/-- Where the resolver at a place turns for a name of this mode. -/
def source (p : Place) (mode : LookupMode) : Source :=
  match F.parent? p with
  | some q => .resolver q
  | none =>
    match p with
    | .host _ => .nothing
    | .resolver i =>
      let r := F.resolver (.resolver i)
      match r.host with
      | some k => if asksHost r mode then F.hostSource k else .nothing
      | none => .nothing

end Forest

/-- The height of a place: hosts are lowest, and resolvers stand in the order of the list. -/
def Place.rank : Place → Nat
  | host _ => 0
  | resolver i => i + 1

namespace Forest

theorem rank_parent {F : Forest} {p q : Place} (h : F.parent? p = some q) : q.rank < p.rank := by
  cases p with
  | host k => simp [parent?] at h
  | resolver i =>
    simp only [parent?] at h
    split at h
    · split at h
      · obtain rfl := Option.some.inj h
        simpa [Place.rank] using ‹_›
      · simp at h
    · simp at h

/-- A resolver turns only to resolvers that stand lower. -/
theorem rank_source {F : Forest} {p q : Place} {mode : LookupMode}
    (h : F.source p mode = .resolver q) : q.rank < p.rank := by
  unfold source at h
  split at h
  · rename_i r hr
    injection h with h
    exact h ▸ rank_parent hr
  · cases p with
    | host k => simp at h
    | resolver i =>
      simp only [hostSource] at h
      split at h
      · split at h
        · split at h <;> simp at h
          simp [← h, Place.rank]
        · simp at h
      · simp at h

/-- What holds of every resolver, if it holds of those that the resolver may turn to, holds of
all. -/
theorem source_induction {F : Forest} {M : Place → Prop}
    (h : ∀ p, (∀ q mode, F.source p mode = .resolver q → M q) → M p) (p : Place) : M p := by
  induction hrank : p.rank using Nat.strongRecOn generalizing p with
  | _ rank ih => exact h p fun q mode hq => ih q.rank (hrank ▸ rank_source hq) q rfl

end Forest

end TierIsolation
