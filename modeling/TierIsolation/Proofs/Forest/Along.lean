import TierIsolation.Proofs.Forest.LookupOrder

/-!
# What resolutions and runs lead to

Some relations between a state and a later one hold of a whole resolution as soon as they hold of
its parts: of opening an entry, of reading from one, and of resolving a name by a search that they
hold of (`Forest.Stepwise`). A computation goes *along* such a relation (`Forest.Along`).

* `Stepwise.resolveWith`: a resolution does, if the relation is kept wherever it can come to.
* `runCall_along`, `run_along`: calls and runs do, if releases do as well.

A resolution is `Undisturbed` if nothing takes place while entries are opened and read.
-/

namespace TierIsolation.Forest

variable {F : Forest} {R : State → State → Prop} {D : Place → Prop} {call : Call → State → State}
  {p : Place} {name : String}

/-- From every state the computation leads to one that is related to it. -/
def Along (R : State → State → Prop) {α : Type} (f : State → Outcome α) : Prop :=
  ∀ s, R s (f s).1

/-- The relation holds of everything that resolvers at the places `D` do in one go. -/
structure Stepwise (F : Forest) (call : Call → State → State) (D : Place → Prop)
    (R : State → State → Prop) : Prop where
  refl : ∀ s, R s s
  trans : ∀ {s t u}, R s t → R t u → R s u
  handleAt : ∀ {p index e}, D p → (F.resolver p).searchPath[index]? = some e →
    Along R (F.handleAt call p index e)
  readFrom : ∀ {p}, D p → ∀ h e path, Along R (F.readFrom call p h e path)
  resolveBy : ∀ {p search}, D p → Along R search → ∀ name, Along R (F.resolveBy p name search)

/-- Asking in order leads along the relation if asking each of them does. -/
theorem Along.askInOrder {asks : List (State → Outcome (Option Symbol))} (hrefl : ∀ s, R s s)
    (htrans : ∀ {s t u}, R s t → R t u → R s u) (h : ∀ ask ∈ asks, Along R ask) :
    Along R (askInOrder asks) := by
  induction asks with
  | nil => exact hrefl
  | cons first rest ih =>
    intro s
    have hfirst := h first List.mem_cons_self s
    have hrest := ih fun ask hask => h ask (List.mem_cons_of_mem _ hask)
    rw [Forest.askInOrder]
    split
    · rename_i s₁ hf
      rw [hf] at hfirst
      exact htrans hfirst (hrest s₁)
    · exact hfirst

namespace Stepwise

/-- Asking an entry. -/
theorem askEntry (h : Stepwise F call D R) (hp : D p) {index : Nat} {e : Entry}
    (he : (F.resolver p).searchPath[index]? = some e) :
    Along R (F.ask call p name (.entry index e)) := by
  intro s
  have hopen := h.handleAt hp he s
  simp only [ask]
  split
  · rename_i s₁ fault hf
    rw [hf] at hopen
    exact hopen
  · rename_i s₁ handle hf
    rw [hf] at hopen
    have hread := h.trans hopen
      (h.readFrom hp handle e (Symbol.path name (F.resolver p).suffix) s₁)
    split
    · rename_i s₂ fault hf
      rw [hf] at hread
      exact hread
    · rename_i s₂ found hf
      rw [hf] at hread
      exact hread

/-- Asking a source leads along the relation if it is nowhere, or a resolver that does. -/
theorem askSource (h : Stepwise F call D R) {source : Source}
    (hsource : ∀ q, source = .resolver q → Along R (F.resolveWith call q name)) :
    Along R (F.askSource call name source) := by
  cases source with
  | nothing => exact h.refl
  | table owner symbols => exact h.refl
  | resolver q =>
    intro s
    have hs := hsource q rfl s
    rwa [← orNothing_fst] at hs

/-- Asking one of those in the order of a look-up, if resolving the name at the source does. -/
theorem ask_of_source (h : Stepwise F call D R) (hp : D p)
    (hsource : ∀ q, F.source p ((F.resolver p).policy.modeFor name) = .resolver q →
      Along R (F.resolveWith call q name)) {x : Asked} (hx : x ∈ F.lookupOrder p name) :
    Along R (F.ask call p name x) := by
  rcases mem_lookupOrder hx with rfl | ⟨index, e, rfl, he⟩
  · exact h.askSource hsource
  · exact h.askEntry hp he

section Closed

variable (h : Stepwise F call D R)
  (hD : ∀ {q r}, D q → F.source q ((F.resolver q).policy.modeFor name) = .resolver r → D r)
  (hp : D p)
include h hD hp

/-- A resolution leads along the relation. Sources stand lower, and `D` has to hold of those that
the name leads to. -/
theorem resolveWith : Along R (F.resolveWith call p name) := by
  induction p using source_induction (F := F) with
  | h p ih =>
    rw [resolveWith_eq_askInOrder]
    refine h.resolveBy hp (.askInOrder h.refl h.trans ?_) name
    intro ask hask
    obtain ⟨x, hx, rfl⟩ := List.mem_map.1 hask
    exact h.ask_of_source hp (fun q hq => ih q _ hq (hD hp hq)) hx

theorem ask {x : Asked} (hx : x ∈ F.lookupOrder p name) : Along R (F.ask call p name x) :=
  h.ask_of_source hp (fun _ hq => h.resolveWith hD (hD hp hq)) hx

theorem askInOrder {xs : List Asked} (hxs : xs ⊆ F.lookupOrder p name) :
    Along R (askInOrder (xs.map (F.ask call p name))) := by
  refine .askInOrder h.refl h.trans fun ask hask => ?_
  obtain ⟨x, hx, rfl⟩ := List.mem_map.1 hask
  exact h.ask hD hp (hxs hx)

end Closed

end Stepwise

/-! ## Undisturbed resolutions -/

/-- Nothing takes place while entries of a resolver are opened and read: there are no calls, or they
are not carried out. -/
structure UndisturbedAt (F : Forest) (call : Call → State → State) (p : Place) : Prop where
  opening : ∀ history e s, runCalls call ((F.opener p).openEntry history e).calls s = s
  reading : ∀ history h path s, runCalls call ((F.opener p).read history h path).calls s = s

/-- Nothing takes place while entries are opened and read, whoever does it. -/
def Undisturbed (F : Forest) (call : Call → State → State) : Prop := ∀ p, UndisturbedAt F call p

theorem undisturbedAt_of_quiet (hquiet : (F.opener p).Quiet) (call : Call → State → State) :
    UndisturbedAt F call p where
  opening history e s := by rw [hquiet.opening, runCalls, List.foldl_nil]
  reading history h path s := by rw [hquiet.reading, runCalls, List.foldl_nil]

theorem undisturbed_of_quiet (hquiet : F.Quiet) (call : Call → State → State) :
    Undisturbed F call := fun p => undisturbedAt_of_quiet (hquiet p) call

/-- Calls that are followed down to no depth at all are not carried out. -/
theorem runCalls_zero (calls : List Call) (s : State) : runCalls (F.runCall 0) calls s = s := by
  induction calls with
  | nil => rfl
  | cons c rest ih => exact ih

theorem undisturbed_zero : Undisturbed F (F.runCall 0) := fun _ =>
  ⟨fun _ _ _ => runCalls_zero _ _, fun _ _ _ _ => runCalls_zero _ _⟩

/-! ## Runs -/

section Runs

variable (hstep : ∀ call : Call → State → State, (∀ c s, R s (call c s)) →
    Stepwise F call (fun _ => True) R)
  (hrelease : ∀ p s, R s (F.release p s).1)
include hstep hrelease

theorem runCall_along (hrefl : ∀ s, R s s) (depth : Nat) (c : Call) (s : State) :
    R s (F.runCall depth c s) := by
  induction depth generalizing c s with
  | zero => exact hrefl s
  | succ depth ih =>
    cases c with
    | resolve p name => exact (hstep _ ih).resolveWith (fun _ _ => trivial) trivial s
    | release p => exact hrelease p s

theorem resolve_along (hrefl : ∀ s, R s s) (depth : Nat) (p : Place) (name : String) :
    Along R (F.resolve depth p name) :=
  (hstep _ (runCall_along hstep hrelease hrefl depth)).resolveWith (fun _ _ => trivial) trivial

theorem perform_along (hrefl : ∀ s, R s s) (depth : Nat) (o : Operation) (s : State) :
    R s (F.perform depth s o) := by
  cases o with
  | resolve p name => exact resolve_along hstep hrelease hrefl depth p name s
  | tryResolve p name =>
    rw [perform, tryResolve_fst]
    exact resolve_along hstep hrelease hrefl depth p name s
  | release p => exact hrelease p s

theorem run_along (hrefl : ∀ s, R s s) (depth : Nat) (operations : List Operation) (s : State) :
    R s (F.run depth operations s) := by
  have htrans : ∀ {s t u}, R s t → R t u → R s u := (hstep (fun _ s => s) fun _ => hrefl).trans
  exact run_induction (hrefl s) fun o _ t ht =>
    htrans ht (perform_along hstep hrelease hrefl depth o t)

end Runs

end TierIsolation.Forest
