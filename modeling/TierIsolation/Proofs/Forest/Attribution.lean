import TierIsolation.Opener.Scripted
import TierIsolation.Proofs.Forest.Coherence

/-!
# Where faults come from

`resolve_attributed`: a resolution that fails says where it failed. Either nothing has the name, and
the fault names the resolver that was asked; or the fault is one of a resolver that the name leads
to, up the lineage to the host of the root, and names this resolver: it was released, or an entry on
its search path could not be opened or read.

Names may be resolved and resolvers released while entries are opened and read, so what is said of a
fault (`Forest.FaultOf`) is said of the state that the resolution ends in.
-/

namespace TierIsolation.Forest

variable {F : Forest} {s t : State} {l : Ledger} {p q : Place} {name : String}
  {fault : ResolutionFault} {call : Call → State → State}

/-- A fault that the resolver at `q` is the cause of, when it is asked for a name. -/
inductive FaultOf (F : Forest) (name : String) (t : State) (q : Place) : ResolutionFault → Prop
  | released (h : (t.resolver q).released = true) :
      FaultOf F name t q (.released (F.resolver q).name)
  /-- An entry could not be opened. Others may have done something since. -/
  | opening {e : Entry} {cause : OpenerFault} {earlier : History}
      (he : e ∈ (F.resolver q).searchPath)
      (hanswer : ((F.opener q).openEntry earlier e).answer = .error cause)
      (hevent : .openFailed q e :: earlier <:+ t.history) :
      FaultOf F name t q (.entryFailed e.location (F.resolver q).name cause.message)
  /-- An entry could not be read, and not because its resolver was released. -/
  | reading {h : Handle} {cause : OpenerFault} {earlier later : History}
      (he : h.entry ∈ (F.resolver q).searchPath) (hlive : (t.resolver q).released = false)
      (hanswer : ((F.opener q).read earlier h (Symbol.path name (F.resolver q).suffix)).answer =
        .error cause)
      (hlater : earlier <:+ later)
      (hevent : t.history = .readFailed h (Symbol.path name (F.resolver q).suffix) :: later) :
      FaultOf F name t q (.entryFailed h.entry.location (F.resolver q).name cause.message)

theorem faultOf_released_iff {resolver : String} :
    FaultOf F name t q (.released resolver) ↔
      resolver = (F.resolver q).name ∧ (t.resolver q).released = true := by
  constructor
  · rintro ⟨h⟩
    exact ⟨rfl, h⟩
  · rintro ⟨rfl, h⟩
    exact .released h

/-! ## Entries -/

section Entries

variable (hcall : ∀ c s, Accounted F s (call c s)) {index : Nat} {e : Entry}
include hcall

/-- An entry is not opened because it fails to, or because its resolver was released. -/
theorem faultOf_handleAt (he : (F.resolver p).searchPath[index]? = some e)
    (h : F.handleAt call p index e s = (t, .error fault)) : FaultOf F name t p fault := by
  unfold handleAt at h
  split at h
  · rename_i hreleased
    cases h
    exact .released hreleased
  · split at h
    · cases h
    · dsimp only at h
      split at h
      · rename_i cause hanswer
        cases h
        have hruns := Accounted.runCalls hcall ((F.opener p).openEntry s.history e).calls
          (s.record (.openFailed p e))
        exact .opening (List.mem_of_getElem? he) hanswer hruns.precedes.history
      · -- the entry is open, so it is given back only if its resolver was released meanwhile
        unfold keepHandle at h
        split at h
        · rename_i hreleased
          cases h
          exact .released hreleased
        · split at h <;> cases h

/-- An open entry is not read because that fails, or because its resolver was released. -/
theorem faultOf_readFrom {h : Handle} (he : h.entry ∈ (F.resolver p).searchPath)
    (hread : F.readFrom call p h h.entry (Symbol.path name (F.resolver p).suffix) s =
      (t, .error fault)) : FaultOf F name t p fault := by
  have hruns := Accounted.runCalls hcall
    ((F.opener p).read s.history h (Symbol.path name (F.resolver p).suffix)).calls s
  simp only [readFrom] at hread
  split at hread
  · cases hread
  · rename_i cause hanswer
    cases hread
    split
    · rename_i hreleased
      exact .released hreleased
    · rename_i hlive
      exact .reading he (Bool.not_eq_true _ ▸ hlive) hanswer hruns.precedes.history rfl

theorem faultOf_askEntry (hb : Balanced F (s, l))
    (he : (F.resolver p).searchPath[index]? = some e)
    (h : F.ask call p name (.entry index e) s = (t, .error fault)) : FaultOf F name t p fault := by
  obtain hopen | ⟨s₁, handle, hheld, hread⟩ := askEntry_eq_error_iff.1 h
  · exact faultOf_handleAt hcall he hopen
  · obtain rfl : handle.entry = e := entry_of_handleAt hcall hb he hheld
    exact faultOf_readFrom hcall (List.mem_of_getElem? he) hread

end Entries

/-! ## Resolutions -/

/-- Nothing was found, or one of the resolvers that the name leads to is the cause of the fault. -/
theorem resolveWith_attributed (hcall : ∀ c s, Accounted F s (call c s)) (hb : Balanced F (s, l))
    (h : F.resolveWith call p name s = (t, .error fault)) :
    fault = .notFound name (F.resolver p).name ∨
      ∃ q, TurnsTo F name p q ∧ FaultOf F name t q fault := by
  induction p using source_induction (F := F) generalizing s l t with
  | h p ih =>
    rw [resolveWith_eq_askInOrder, resolveBy] at h
    split at h
    · rename_i hreleased
      cases h
      exact .inr ⟨p, .refl, .released hreleased⟩
    · split at h
      · cases h
      · split at h
        · cases h
        · cases h
          exact .inl rfl
        · rename_i s₁ cause hsearch
          cases h
          obtain ⟨asks, ask, later, s₂, hlist, hbefore, hask⟩ := askInOrder_eq_error_iff.1 hsearch
          obtain ⟨before, rest, horder, rfl, hrest⟩ := List.map_eq_append_iff.1 hlist
          obtain ⟨x, after, rfl, rfl, -⟩ := List.map_eq_cons_iff.1 hrest
          -- those asked before left every handle where it belongs
          have hsub : before ⊆ F.lookupOrder p name := by simp [horder]
          obtain ⟨l₂, hsteps, -⟩ :=
            (accounted_stepwise hcall).askInOrder (fun _ _ => trivial) trivial hsub s l
          rw [hbefore] at hsteps
          have hb₂ := hsteps.balanced hb
          have hx : x ∈ F.lookupOrder p name := by simp [horder]
          rcases mem_lookupOrder hx with rfl | ⟨index, e, rfl, he⟩
          · cases hq : F.source p ((F.resolver p).policy.modeFor name) with
            | nothing =>
              rw [hq] at hask
              cases hask
            | table owner symbols =>
              rw [hq] at hask
              cases hask
            | resolver q =>
              rw [hq] at hask
              obtain ⟨hfails, hfault⟩ := orNothing_eq_error_iff.1 hask
              obtain rfl | ⟨r, hturns, hr⟩ := ih q _ hq hb₂ hfails
              · cases hfault
              · exact .inr ⟨r, .head hq hturns, hr⟩
          · exact .inr ⟨p, .refl, faultOf_askEntry hcall hb₂ he hask⟩

/-- **Faults are attributed to where they happened.** Entries may fail to open, or to be read, and
while they are opened and read, names may be resolved and resolvers released.

After any run, a resolution that ends with a fault found nothing, and names the resolver that was
asked; or the fault is that of a resolver of its lineage, or of the one behind the host that the
root asks: this one is released in the end, or has an entry that failed on its search path. -/
theorem resolve_attributed (F : Forest) (depth : Nat) (operations : List Operation) (p : Place)
    (name : String) (fault : ResolutionFault) :
    let outcome := F.resolve depth p name (F.run depth operations {})
    outcome.2 = .error fault →
      fault = .notFound name (F.resolver p).name ∨
      ∃ q, FaultOf F name outcome.1 q fault ∧
        (q ∈ F.lineage p ∨ ∃ k, q = .host k ∧ ∃ root ∈ F.lineage p, F.parent? root = none ∧
          F.source root ((F.resolver root).policy.modeFor name) = .resolver (.host k)) := by
  intro outcome h
  obtain ⟨l, hsteps, -⟩ := run_accounted (F := F) depth operations {} {}
  have houtcome : F.resolveWith (F.runCall depth) p name (F.run depth operations {}) =
      (outcome.1, .error fault) := by rw [← h]; rfl
  obtain hmissing | ⟨q, hturns, hq⟩ :=
    resolveWith_attributed (runCall_accounted depth) (hsteps.balanced (.start F)) houtcome
  · exact .inl hmissing
  · exact .inr ⟨q, hq, hturns.mem_lineage⟩

/-- A library that is released while its entry is read, and a resolver that asks it first, but for
names that its own entry would have if it could be read. -/
def interrupted : Forest where
  resolvers := [
    { name := "lib", searchPath := [⟨"/lib/", .directory⟩] },
    { name := "app", searchPath := [⟨"/app/", .directory⟩], parent := some 0,
      policy := ({ default := .parentFirst } : LookupPolicy).addRule "own." .selfFirst }]
  opener _ := .scripted [("/lib/", .releaseAtRead (.resolver 0)), ("/app/", .failRead "gone")]
    (.memory [] [])

/-- The resolver itself is the cause of the first fault, the library of the second one. -/
theorem interrupted_attributed :
    let unread := interrupted.tryResolve 1 (.resolver 1) "own.App" {}
    let refused := interrupted.resolve 1 (.resolver 1) "a.Lib" unread.1
    unread.2 = .error (.entryFailed "/app/" "app" "gone") ∧
    refused.2 = .error (.released "lib") ∧
    FaultOf interrupted "a.Lib" refused.1 (.resolver 0) (.released "lib") ∧
    (refused.1.resolver (.resolver 0)).released = true := by
  have hunread : (interrupted.tryResolve 1 (.resolver 1) "own.App" {}).2 =
      .error (.entryFailed "/app/" "app" "gone") := by with_unfolding_all rfl
  have hrefused : (interrupted.resolve 1 (.resolver 1) "a.Lib"
      (interrupted.tryResolve 1 (.resolver 1) "own.App" {}).1).2 = .error (.released "lib") := by
    with_unfolding_all rfl
  intro unread refused
  have hlineage : interrupted.lineage (.resolver 1) = [.resolver 1, .resolver 0] := by
    rw [lineage_of_parent (q := .resolver 0) (by decide), lineage_of_root (by decide)]
  obtain hmissing | ⟨q, hq, hplace⟩ := resolve_attributed interrupted 1
    [.tryResolve (.resolver 1) "own.App"] (.resolver 1) "a.Lib" (.released "lib") hrefused
  · cases hmissing
  · obtain ⟨hname, hreleased⟩ := faultOf_released_iff.1 hq
    rw [hlineage] at hplace
    obtain rfl : q = .resolver 0 := by
      obtain hmem | ⟨k, rfl, -⟩ := hplace
      · obtain rfl | rfl : q = .resolver 1 ∨ q = .resolver 0 := by simpa using hmem
        · exact absurd hname (by decide)
        · rfl
      · simp [interrupted, resolver, host, Host.resolver, Host.name] at hname
    exact ⟨hunread, hrefused, hq, hreleased⟩

end TierIsolation.Forest
