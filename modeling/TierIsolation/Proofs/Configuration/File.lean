import TierIsolation.Configuration.File
import TierIsolation.Proofs.Document.Reading

/-!
# Configurations written to files

`Configuration.ofYaml_toYaml`: a configuration written as YAML is read back as it was, if it is
valid, and refused with the fault that validation finds, if it is not; and what is read is valid.

The text is left to the YAML printer and the reader: `Yaml.Node.ofDocument` is the tree that a
document is written as, and the theorem asks that this tree is read back. From the tree on, texts
are found in scalars of any style, only what is not quoted may stand for nothing
(`Yaml.ne_nothing_of_plain`), and fields are found by their names (`Yaml.Tree.format_reads`).
-/

namespace TierIsolation

/-! ## The tree of a document -/

namespace Yaml

theorem Node.ofItems_eq_map (items : List Document) :
    Node.ofItems items = items.map Node.ofDocument := by
  induction items with
  | nil => rfl
  | cons item rest ih => rw [Node.ofItems, ih, List.map_cons]

theorem Node.ofFields_eq_map (fields : List (String × Document)) :
    Node.ofFields fields = fields.map fun field =>
      (.scalar {} (fieldStyleOf field.1) field.1, Node.ofDocument field.2) := by
  induction fields with
  | nil => rfl
  | cons field rest ih => rw [Node.ofFields, ih, List.map_cons]

/-- A text that could be taken for nothing is quoted. -/
theorem ne_nothing_of_plain {s : String} (h : styleOf s = .plain) :
    s.isEmpty = false ∧ Scalar.isNull s = false := by
  have htyped : Scalar.looksTyped s = false := by
    simp only [styleOf] at h
    split at h
    · split at h <;> cases h
    · split at h
      · rename_i hplain
        simpa using (Bool.and_eq_true_iff.1 hplain).1
      · split at h <;> cases h
  simp only [Scalar.looksTyped, Bool.or_eq_false_iff] at htyped
  exact ⟨htyped.1.1.1.1.1, htyped.1.1.1.1.2⟩

namespace Tree

variable (t : Tree)

theorem present?_text (s : String) : t.present? (Node.ofDocument (.text s)) = some true := by
  simp only [present?, Node.ofDocument, target, scalarOf]
  split
  · rfl
  · rename_i hstyle
    obtain ⟨hempty, hnull⟩ := ne_nothing_of_plain (s := s) (by simpa using hstyle)
    simp [hempty, hnull]

theorem field?_eq_lookup {fields : List (String × Node)} (h : (fields.map (·.1)).Nodup)
    (name : String) : field? fields name = some (fields.lookup name) := by
  rw [field?, filter_fst_eq h]
  cases fields.lookup name <;> rfl

/-- The names of fields are read from the keys of a mapping. -/
theorem mapM_ofFields (fields : List (String × Document)) :
    ((Node.ofFields fields).mapM fun (k, v) => (t.text? k).map (·, v)) =
      some (fields.map fun field => (field.1, Node.ofDocument field.2)) := by
  rw [Node.ofFields_eq_map, List.mapM_map]
  exact mapM_eq_some_map (fun _ => rfl) fields

theorem record?_ofDocument {names : List String} {fields : List (String × Document)}
    (hnodup : (fields.map (·.1)).Nodup) (hnames : ∀ field ∈ fields, field.1 ∈ names) :
    t.record? names (Node.ofDocument (.object fields)) =
      some (names.map fun name => (fields.lookup name).map Node.ofDocument) := by
  let nodes := fields.map fun field => (field.1, Node.ofDocument field.2)
  have hall : (nodes.all fun field => names.contains field.1) = true := by
    simpa [nodes] using hnames
  have hfield (name : String) :
      field? nodes name = some ((fields.lookup name).map Node.ofDocument) := by
    rw [field?_eq_lookup (by simpa [nodes, Function.comp_def] using hnodup), lookup_map_snd]
  simp only [record?, Node.ofDocument, target, mapM_ofFields]
  exact (if_pos hall).trans (mapM_eq_some_map hfield names)

/-- The nodes of documents are read as what the documents say. -/
theorem format_reads : t.format.Reads Node.ofDocument where
  text _ := rfl
  textOrNull s := by
    cases s with
    | none => rfl
    | some s =>
      have hpresent := t.present?_text s
      simp only [format, orNull?, Document.ofText?, hpresent]
      rfl
  choice _ := rfl
  items ds := by
    simp only [format, items?, Node.ofDocument, target, Node.ofItems_eq_map]
  record _ _ hnodup hnames := t.record?_ofDocument hnodup hnames

end Tree

end Yaml

/-! ## Files -/

namespace ConfigurationFile

/-- The number of a version is written as a plain scalar, which stands for it. -/
theorem orNull?_version (t : Yaml.Tree) :
    t.orNull? t.natural? (.ofDocument (.number Configuration.currentVersion 0)) =
      some (some Configuration.currentVersion) :=
  rfl

theorem ofTree?_toFile (c : Configuration) :
    ofTree? (.ofRoot (.ofDocument c.toFile.toDocument)) = some c.toFile := by
  let t : Yaml.Tree := .ofRoot (.ofDocument c.toFile.toDocument)
  have hf : t.format.Reads Yaml.Node.ofDocument := t.format_reads
  have hrecord : t.format.record? fieldNames t.root =
      some [some (.ofDocument (.number Configuration.currentVersion 0)),
        some (.ofDocument c.toDocument)] :=
    hf.record fieldNames
      [("version", .number Configuration.currentVersion 0), ("isolation", c.toDocument)]
      (by simp) (by simp [fieldNames])
  have hread : Configuration.read? t.format (.ofDocument c.toDocument) = some c :=
    Configuration.read?_toDocument hf c
  change ofTree? t = _
  rw [ofTree?, hrecord]
  simp only [Option.bind_eq_bind, Option.bind_some, orDefault, orNull?_version, hread]
  rfl

/-- A file of the current version is accepted if its configuration is valid. -/
theorem accept_toFile (c : Configuration) : c.toFile.accept = c.validate.map fun _ => c := by
  rw [accept, Configuration.toFile]
  exact if_pos (List.mem_singleton.2 rfl)

/-- Whatever is accepted is valid. -/
theorem validate_of_accept {file : ConfigurationFile} {c : Configuration}
    (h : file.accept = .ok c) : c.validate = .ok () := by
  unfold accept at h
  split at h
  · cases h
  · split at h
    · cases hvalid : file.configuration.validate with
      | error fault =>
        rw [hvalid] at h
        cases h
      | ok _ =>
        rw [hvalid] at h
        obtain rfl := Except.ok.inj h
        exact hvalid
    · cases h

end ConfigurationFile

namespace Configuration

theorem ofYaml_of_parse? {c : Configuration}
    (hread : Yaml.Tree.parse? c.toYaml = some (.ofRoot (.ofDocument c.toFile.toDocument))) :
    ofYaml c.toYaml = c.validate.map fun _ => c := by
  rw [ofYaml, hread, ofTree, Option.bind_some, ConfigurationFile.ofTree?_toFile]
  exact ConfigurationFile.accept_toFile c

theorem validate_of_ofYaml {text : String} {c : Configuration} (h : ofYaml text = .ok c) :
    c.validate = .ok () := by
  unfold ofYaml ofTree at h
  split at h
  · exact ConfigurationFile.validate_of_accept h
  · cases h

/-- If the tree of a written configuration is read back, a valid configuration is read back as it
was, and one that is not valid is refused for what is wrong with it. Every text that is accepted
gives a valid configuration. -/
theorem ofYaml_toYaml (c : Configuration)
    (hread : Yaml.Tree.parse? c.toYaml = some (.ofRoot (.ofDocument c.toFile.toDocument))) :
    (c.validate = .ok () → ofYaml c.toYaml = .ok c) ∧
    (∀ fault, c.validate = .error fault → ofYaml c.toYaml = .error fault) ∧
    ∀ text d, ofYaml text = .ok d → d.validate = .ok () := by
  rw [ofYaml_of_parse? hread]
  refine ⟨fun hvalid => ?_, fun fault hfault => ?_, fun text d => validate_of_ofYaml⟩
  · rw [hvalid]
    rfl
  · rw [hfault]
    rfl

/-- A configuration with texts that are quoted in the file, two of which could stand for nothing. -/
def quotedTexts : Configuration where
  appExclusions := "g*:*:*"
  pluginSpace := .extensions
  extensions := [⟨"a: b", "g:a:*", some "~"⟩]
  bootPrefixes := []
  testOutputDir := some ""
  dependencyGraphFile := "a.dot"
  classpathVariable := "CP"

/-- The tokens of its file. -/
def quotedTextsTokens : List Yaml.Token :=
  block [
    ("version", [.scalar .plain "1"]),
    ("isolation", block [
      ("app_exclusions", [.scalar .plain "g*:*:*"]),
      ("plugin_space", [.scalar .plain "extensions"]),
      ("extensions", .blockEntry :: block [
        ("name", [.scalar .singleQuoted "a: b"]),
        ("artifact", [.scalar .plain "g:a:*"]),
        ("metadata_location", [.scalar .singleQuoted "~"])]),
      ("provided_precedence", [.scalar .plain "container"]),
      ("boot_prefixes", [.flowSequenceStart, .flowSequenceEnd]),
      ("project_dir", [.scalar .plain "."]),
      ("test_output_dir", [.scalar .singleQuoted ""]),
      ("dependency_graph_file", [.scalar .plain "a.dot"]),
      ("edge_delimiter", [.scalar .plain "->"]),
      ("symbol_suffix", [.scalar .plain ".class"]),
      ("classpath_variable", [.scalar .plain "CP"])])]
where
  /-- The tokens of a mapping whose fields stand on lines of their own. -/
  block (fields : List (String × List Yaml.Token)) : List Yaml.Token :=
    .blockMappingStart ::
      fields.flatMap (fun (name, tokens) => [.key, .scalar .plain name, .value] ++ tokens) ++
      [.blockEnd]

theorem ofText?_quotedTexts :
    (Yaml.normalise? quotedTexts.toYaml.toList).bind Yaml.Token.ofText? =
      some quotedTextsTokens := by
  let fields := [("version", .number currentVersion 0), ("isolation", quotedTexts.toDocument)]
  rw [show quotedTexts.toYaml = String.ofList (Yaml.fieldLines 0 fields) from rfl,
    String.toList_ofList]
  decide +kernel

theorem documentNode?_quotedTexts :
    Yaml.documentNode? quotedTextsTokens =
      some (.ofDocument quotedTexts.toFile.toDocument, []) := by
  rfl

theorem parse?_quotedTexts :
    Yaml.Tree.parse? quotedTexts.toYaml =
      some (.ofRoot (.ofDocument quotedTexts.toFile.toDocument)) := by
  obtain ⟨text, htext, htokens⟩ := Option.bind_eq_some_iff.1 ofText?_quotedTexts
  simp only [Yaml.Tree.parse?, htext, htokens, documentNode?_quotedTexts, Option.bind_eq_bind,
    Option.bind_some]
  rfl

theorem quotedTexts_read_back :
    Yaml.Tree.parse? quotedTexts.toYaml =
        some (.ofRoot (.ofDocument quotedTexts.toFile.toDocument)) ∧
      quotedTexts.validate = .ok () ∧ ofYaml quotedTexts.toYaml = .ok quotedTexts := by
  have hvalid : quotedTexts.validate = .ok () := rfl
  exact ⟨parse?_quotedTexts, hvalid, (ofYaml_toYaml quotedTexts parse?_quotedTexts).1 hvalid⟩

end Configuration

end TierIsolation
