import TierIsolation.Text

/-!
# Artifacts

An artifact is identified by its group, name and kind (`Identity`). A declared artifact
(`Artifact`) also has a version and a scope, which do not take part in the identity: the same
artifact declared with two scopes is one artifact. `distinct` keeps the first of several artifacts
with one identity.
-/

namespace TierIsolation

/-! ## Scopes -/

/-- What a declared dependency is needed for. -/
inductive Scope
  /-- Supplied by the host. -/
  | provided
  /-- Bundled with the unit under test. -/
  | compile
  /-- Needed to run the tests. -/
  | test
  /-- Any other declared scope. -/
  | other (name : String)
  deriving DecidableEq, Repr, Inhabited

namespace Scope

def text : Scope → String
  | provided => "provided"
  | compile => "compile"
  | test => "test"
  | other name => name

/-- The scope named by a word in lower case. -/
def named (word : String) : Scope :=
  if word = "provided" then provided
  else if word = "compile" then compile
  else if word = "test" then test
  else other word

/-- Reads a scope: white space around it and the case of ASCII letters do not count. -/
def ofToken (token : String) : Scope :=
  named (String.ofList (Text.lower (Text.trim token.toList)))

@[simp] theorem text_named (word : String) : (named word).text = word := by
  unfold named
  split
  · simp_all [text]
  · split
    · simp_all [text]
    · split <;> simp_all [text]

end Scope

/-! ## Identities -/

/-- What makes two artifacts the same one. -/
structure Identity where
  group : String
  name : String
  kind : String
  deriving DecidableEq, Repr, Inhabited

/-- Identities are ordered by group, then name, then kind. -/
instance : Ord Identity where
  compare := compareLex (compareOn Identity.group)
    (compareLex (compareOn Identity.name) (compareOn Identity.kind))

instance : Std.TransOrd Identity :=
  inferInstanceAs (Std.TransCmp (compareLex (compareOn Identity.group)
    (compareLex (compareOn Identity.name) (compareOn Identity.kind))))

instance : Std.LawfulEqOrd Identity where
  eq_of_compare {a b} h := by
    obtain ⟨g₁, n₁, k₁⟩ := a
    obtain ⟨g₂, n₂, k₂⟩ := b
    replace h : compareLex (compareOn Identity.group)
      (compareLex (compareOn Identity.name) (compareOn Identity.kind))
      ⟨g₁, n₁, k₁⟩ ⟨g₂, n₂, k₂⟩ = .eq := h
    rw [compareLex_eq_eq, compareLex_eq_eq] at h
    have hg : g₁ = g₂ := Std.LawfulEqCmp.eq_of_compare h.1
    have hn : n₁ = n₂ := Std.LawfulEqCmp.eq_of_compare h.2.1
    have hk : k₁ = k₂ := Std.LawfulEqCmp.eq_of_compare h.2.2
    rw [hg, hn, hk]

/-- The written form `group:name:kind`. -/
def Identity.text (i : Identity) : String := ":".intercalate [i.group, i.name, i.kind]

/-! ## Declared artifacts -/

/-- An artifact as it is declared on a node or an edge of a dependency graph. -/
structure Artifact where
  identity : Identity
  version : String
  scope : Scope
  deriving DecidableEq, Repr, Inhabited

namespace Artifact

variable (a : Artifact)

/-- The written form `group:name:kind:version:scope`. -/
def text : String :=
  ":".intercalate [a.identity.group, a.identity.name, a.identity.kind, a.version, a.scope.text]

/-- The group as a relative path: dots turned to slashes. -/
def groupPath : String := String.ofList (Text.replace '.' '/' a.identity.group.toList)

/-- A `pom` describes other artifacts and carries no code. -/
def isPom : Bool := a.identity.kind == "pom"

def isTest : Bool := a.scope == .test

def isCompile : Bool := a.scope == .compile

def isProvided : Bool := a.scope == .provided

/-- The packaged test output of a module: a `test-jar` declared for tests. -/
def isTestOutput : Bool := a.isTest && a.identity.kind == "test-jar"

/-- The artifacts of a list in the order of their identities, those with one identity in the order
of the list. -/
def sorted (artifacts : List Artifact) : List Artifact :=
  artifacts.mergeSort fun a b => (compare a.identity b.identity).isLE

/-- The artifacts of a list whose identities are not in `seen`, each identity once. -/
def distinctFrom (seen : List Identity) : List Artifact → List Artifact
  | [] => []
  | a :: rest =>
    if a.identity ∈ seen then distinctFrom seen rest
    else a :: distinctFrom (a.identity :: seen) rest

/-- The first artifact of every identity, in order. -/
def distinct (artifacts : List Artifact) : List Artifact := distinctFrom [] artifacts

theorem mem_distinctFrom {seen : List Identity} {artifacts : List Artifact} {a : Artifact}
    (h : a ∈ distinctFrom seen artifacts) : a ∈ artifacts ∧ a.identity ∉ seen := by
  induction artifacts generalizing seen with
  | nil => simp [distinctFrom] at h
  | cons b rest ih =>
    unfold distinctFrom at h
    split at h
    · obtain ⟨h₁, h₂⟩ := ih h
      exact ⟨List.mem_cons_of_mem _ h₁, h₂⟩
    · rename_i hb
      rcases List.mem_cons.1 h with rfl | h
      · exact ⟨List.mem_cons_self, hb⟩
      · obtain ⟨h₁, h₂⟩ := ih h
        exact ⟨List.mem_cons_of_mem _ h₁, fun hs => h₂ (List.mem_cons_of_mem _ hs)⟩

/-- No identity is kept twice. -/
theorem nodup_distinctFrom (seen : List Identity) (artifacts : List Artifact) :
    ((distinctFrom seen artifacts).map identity).Nodup := by
  induction artifacts generalizing seen with
  | nil => simp [distinctFrom]
  | cons b rest ih =>
    unfold distinctFrom
    split
    · exact ih seen
    · refine List.nodup_cons.2 ⟨fun h => ?_, ih _⟩
      obtain ⟨a, ha, hab⟩ := List.mem_map.1 h
      exact (mem_distinctFrom ha).2 (hab ▸ List.mem_cons_self)

/-- An identity is kept exactly if it occurs and was not seen before. -/
theorem mem_identities_distinctFrom {seen : List Identity} {artifacts : List Artifact}
    {i : Identity} :
    i ∈ (distinctFrom seen artifacts).map identity ↔
      i ∈ artifacts.map identity ∧ i ∉ seen := by
  induction artifacts generalizing seen with
  | nil => simp [distinctFrom]
  | cons b rest ih =>
    unfold distinctFrom
    split
    · rename_i hb
      rw [ih, List.map_cons, List.mem_cons]
      constructor
      · rintro ⟨h₁, h₂⟩
        exact ⟨.inr h₁, h₂⟩
      · rintro ⟨rfl | h₁, h₂⟩
        · exact absurd hb h₂
        · exact ⟨h₁, h₂⟩
    · rename_i hb
      simp only [List.map_cons, List.mem_cons, ih, not_or]
      by_cases hi : i = b.identity
      · simp [hi, hb]
      · simp [hi]

/-- One artifact of every identity is kept. -/
theorem exists_mem_distinct {artifacts : List Artifact} {a : Artifact} (h : a ∈ artifacts) :
    ∃ b ∈ distinct artifacts, b.identity = a.identity := by
  have : a.identity ∈ (distinct artifacts).map identity :=
    mem_identities_distinctFrom.2 ⟨List.mem_map_of_mem h, List.not_mem_nil⟩
  simpa using this

/-- Of every identity that was not seen before, the first artifact is kept. -/
theorem mem_distinctFrom_iff {seen : List Identity} {artifacts : List Artifact} {a : Artifact} :
    a ∈ distinctFrom seen artifacts ↔
      a.identity ∉ seen ∧ artifacts.find? (·.identity == a.identity) = some a := by
  induction artifacts generalizing seen with
  | nil => simp [distinctFrom]
  | cons b rest ih =>
    unfold distinctFrom
    by_cases hab : b.identity = a.identity
    · rw [List.find?_cons_of_pos (by simpa using hab), Option.some.injEq]
      split
      · rename_i hb
        rw [ih, ← hab]
        exact ⟨fun h => absurd hb h.1, fun h => absurd hb h.1⟩
      · rename_i hb
        rw [List.mem_cons, ih, List.mem_cons, ← hab]
        constructor
        · rintro (rfl | ⟨hnot, -⟩)
          · exact ⟨hb, rfl⟩
          · exact absurd (.inl rfl) hnot
        · rintro ⟨-, rfl⟩
          exact .inl rfl
    · rw [List.find?_cons_of_neg (by simpa using hab)]
      split
      · exact ih
      · rw [List.mem_cons, ih, List.mem_cons, not_or]
        constructor
        · rintro (rfl | ⟨⟨-, hseen⟩, hfind⟩)
          · exact absurd rfl hab
          · exact ⟨hseen, hfind⟩
        · rintro ⟨hseen, hfind⟩
          exact .inr ⟨⟨fun h => hab h.symm, hseen⟩, hfind⟩

/-- It matters which identities were seen before, not in which order. -/
theorem distinctFrom_congr {seen seen' : List Identity} (h : ∀ i, i ∈ seen ↔ i ∈ seen')
    (artifacts : List Artifact) : distinctFrom seen artifacts = distinctFrom seen' artifacts := by
  induction artifacts generalizing seen seen' with
  | nil => rfl
  | cons a rest ih =>
    have hcons : ∀ i, i ∈ a.identity :: seen ↔ i ∈ a.identity :: seen' :=
      fun i => by simp only [List.mem_cons, h i]
    simp only [distinctFrom, h a.identity, ih h, ih hcons]

/-- What comes later is compared with what came before. -/
theorem distinctFrom_append (seen : List Identity) (xs ys : List Artifact) :
    distinctFrom seen (xs ++ ys) =
      distinctFrom seen xs ++ distinctFrom (xs.map identity ++ seen) ys := by
  induction xs generalizing seen with
  | nil => rfl
  | cons a rest ih =>
    simp only [List.cons_append, distinctFrom]
    split
    · rename_i ha
      rw [ih]
      refine congrArg _ (distinctFrom_congr (fun i => ?_) ys)
      by_cases hi : i = a.identity <;> simp [hi, ha]
    · rw [ih, List.cons_append]
      refine congrArg _ (congrArg _ (distinctFrom_congr (fun i => ?_) ys))
      simp only [List.mem_append, List.mem_cons, List.map_cons]
      exact or_left_comm.trans or_assoc.symm

/-- Every identity that occurs is kept. -/
theorem mem_identities_distinct {artifacts : List Artifact} {i : Identity} :
    i ∈ (distinct artifacts).map identity ↔ i ∈ artifacts.map identity := by
  rw [distinct, mem_identities_distinctFrom]
  exact and_iff_left List.not_mem_nil

theorem nodup_distinct (artifacts : List Artifact) : ((distinct artifacts).map identity).Nodup :=
  nodup_distinctFrom [] artifacts

/-- What comes last is kept unless its identity has occurred. -/
theorem distinct_concat {occurs : Prop} [Decidable occurs] {xs : List Artifact} {a : Artifact}
    (h : occurs ↔ a.identity ∈ xs.map identity) :
    distinct (xs ++ [a]) = if occurs then distinct xs else distinct xs ++ [a] := by
  rw [distinct, distinctFrom_append, List.append_nil]
  simp only [distinctFrom, ← h]
  split
  · exact List.append_nil _
  · rfl

theorem mem_distinct_iff {artifacts : List Artifact} {a : Artifact} :
    a ∈ distinct artifacts ↔ artifacts.find? (·.identity == a.identity) = some a := by
  rw [distinct, mem_distinctFrom_iff]
  exact and_iff_right List.not_mem_nil

end Artifact

end TierIsolation
