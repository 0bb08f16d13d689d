import TierIsolation.Document.Configuration

/-!
# Reading what was written

A format reads documents (`Format.Reads`) if it finds in the tree of a document the texts, items and
fields that the document consists of. In every such format extensions and configurations are read
back as they were written: `Extension.read?_toDocument`, `Configuration.read?_toDocument`.

What the two records have to contribute is that their fields have different names, and that a field
is left out only where its default is what was left out.
-/

namespace TierIsolation

/-! ## Fields -/

/-- What succeeds for each element succeeds for the list. -/
theorem mapM_eq_some_map {α β : Type} {f : α → Option β} {g : α → β} (h : ∀ a, f a = some (g a))
    (as : List α) : as.mapM f = some (as.map g) := by
  obtain rfl : f = fun a => pure (g a) := funext h
  exact List.mapM_pure

theorem lookup_map_snd {α β : Type} (h : α → β) (fields : List (String × α)) (name : String) :
    (fields.map fun field => (field.1, h field.2)).lookup name = (fields.lookup name).map h := by
  induction fields with
  | nil => rfl
  | cons field rest ih =>
    rw [List.map_cons, List.lookup_cons, List.lookup_cons, ih]
    split <;> rfl

/-- Of fields with different names, at most one has a given name. -/
theorem filter_fst_eq {α : Type} {fields : List (String × α)} (h : (fields.map (·.1)).Nodup)
    (name : String) :
    fields.filter (·.1 == name) = ((fields.lookup name).map (name, ·)).toList := by
  induction fields with
  | nil => rfl
  | cons field rest ih =>
    obtain ⟨key, value⟩ := field
    obtain ⟨hnew, hrest⟩ := List.nodup_cons.1 h
    rw [List.lookup_cons]
    by_cases hkey : key = name
    · subst hkey
      have hnone : rest.filter (·.1 == key) = [] :=
        List.filter_eq_nil_iff.2 fun f hf hfk =>
          hnew (List.mem_map.2 ⟨f, hf, beq_iff_eq.1 hfk⟩)
      simp [hnone]
    · have hother : (name == key) = false := beq_eq_false_iff_ne.2 (Ne.symm hkey)
      simp [hkey, hother, ih hrest]

/-! ## Formats -/

namespace Format

variable {δ : Type}

/-- The format finds in the tree of a document, its node, what the document consists of. -/
structure Reads (f : Format δ) (node : Document → δ) : Prop where
  text : ∀ s, f.text? (node (.text s)) = some s
  textOrNull : ∀ s, f.textOrNull? (node (.ofText? s)) = some s
  choice : ∀ s, f.choice? (node (.text s)) = some s
  items : ∀ ds, f.items? (node (.list ds)) = some (ds.map node)
  record : ∀ names fields, (fields.map (·.1)).Nodup → (∀ field ∈ fields, field.1 ∈ names) →
    f.record? names (node (.object fields)) =
      some (names.map fun name => (fields.lookup name).map node)

namespace Reads

variable {f : Format δ} {node : Document → δ} (hf : f.Reads node)
include hf

/-- A list is read back if its items are. -/
theorem list {α : Type} {read : δ → Option α} {write : α → Document}
    (h : ∀ a, read (node (write a)) = some a) (as : List α) :
    f.list? read (node (.list (as.map write))) = some as := by
  rw [list?, hf.items, Option.bind_some, List.map_map, List.mapM_map]
  exact (mapM_eq_some_map (g := id) h as).trans (congrArg some (List.map_id as))

theorem texts (ss : List String) : f.texts? (node (.list (ss.map .text))) = some ss :=
  hf.list hf.text ss

/-- A choice is read back if it goes by its name. -/
theorem named {α : Type} {choice : String → Option α} {name : α → String}
    (h : ∀ a, choice (name a) = some a) (a : α) :
    f.named? choice (node (.text (name a))) = some a := by
  rw [named?, hf.choice, Option.bind_some, h]

end Reads

end Format

/-! ## Configurations -/

theorem PluginSpace.named?_name (space : PluginSpace) : named? space.name = some space := by
  cases space <;> rfl

theorem Precedence.named?_name (p : Precedence) : named? p.name = some p := by
  cases p <;> rfl

/-- The fields of an extension, the metadata location also if there is none. -/
def Extension.documentFields (e : Extension) : List (String × Document) :=
  [("name", .text e.name), ("artifact", .text e.artifact),
    ("metadata_location", .ofText? e.metadataLocation)]

/-- The fields of a configuration whose extensions are written in this way. -/
def Configuration.documentFields (c : Configuration) (extensions : List Document) :
    List (String × Document) :=
  [("app_exclusions", .text c.appExclusions),
    ("plugin_space", c.pluginSpace.toDocument),
    ("extensions", .list extensions),
    ("provided_precedence", c.providedPrecedence.toDocument),
    ("boot_prefixes", .list (c.bootPrefixes.map .text)),
    ("project_dir", .text c.projectDir),
    ("test_output_dir", .ofText? c.testOutputDir),
    ("dependency_graph_file", .text c.dependencyGraphFile),
    ("edge_delimiter", .text c.edgeDelimiter),
    ("symbol_suffix", .text c.symbolSuffix),
    ("classpath_variable", .text c.classpathVariable)]

section

variable {δ : Type} {f : Format δ} {node : Document → δ} (hf : f.Reads node)
include hf

theorem Extension.read?_documentFields (e : Extension) :
    read? f (node (.object e.documentFields)) = some e := by
  rw [read?, hf.record _ _ (by simp [documentFields]) (by simp [documentFields, fieldNames])]
  simp [fieldNames, documentFields, List.lookup_cons, hf.text, hf.textOrNull, orDefault]

/-- A metadata location that is left out is none. -/
theorem Extension.read?_take (e : Extension) (h : e.metadataLocation = none) :
    read? f (node (.object (e.documentFields.take 2))) = some e := by
  obtain ⟨name, artifact, location⟩ := e
  obtain rfl : location = none := h
  rw [read?, hf.record _ _ (by simp [documentFields]) (by simp [documentFields, fieldNames])]
  simp [fieldNames, documentFields, List.lookup_cons, hf.text, orDefault]

theorem Extension.read?_toDocument (e : Extension) : read? f (node e.toDocument) = some e := by
  obtain ⟨name, artifact, location⟩ := e
  cases location with
  | none => exact read?_take hf _ rfl
  | some location => exact read?_documentFields hf ⟨name, artifact, some location⟩

/-- A configuration is read if its extensions are. -/
theorem Configuration.read?_documentFields (c : Configuration) {extensions : List Document}
    (h : f.list? (Extension.read? f) (node (.list extensions)) = some c.extensions) :
    read? f (node (.object (c.documentFields extensions))) = some c := by
  rw [read?, hf.record _ _ (by simp [documentFields]) (by simp [documentFields, fieldNames])]
  simp [fieldNames, documentFields, List.lookup_cons, hf.text, hf.textOrNull, hf.texts, orDefault,
    h, PluginSpace.toDocument, Precedence.toDocument, hf.named PluginSpace.named?_name,
    hf.named Precedence.named?_name]

theorem Configuration.read?_toDocument (c : Configuration) :
    read? f (node c.toDocument) = some c :=
  read?_documentFields hf c (hf.list (Extension.read?_toDocument hf) c.extensions)

end

end TierIsolation
