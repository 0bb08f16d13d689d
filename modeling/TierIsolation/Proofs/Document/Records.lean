import Mathlib.Data.List.Forall2
import TierIsolation.Document.Artifact
import TierIsolation.Proofs.Document.Reading

/-!
# Values are read back from documents

A record is an object of its fields, in any order, or the list of their values
(`Document.IsRecord`). To a reader all these documents are the same (`IsRecord.record?_eq`), so that
it is enough to read the object in which the fields have the order of their declaration. A value is
read back from every document that it is written as (`values_read_back`), whichever way the records
in it are given.
-/

namespace TierIsolation

namespace Document

/-! ## Records -/

/-- A document of the record with these fields: an object of the fields in some order, or the list
of their values in the order given. -/
inductive IsRecord (fields : List (String × Document)) : Document → Prop
  | object {listed : List (String × Document)} (h : listed.Perm fields) :
      IsRecord fields (.object listed)
  | list : IsRecord fields (.list (fields.map (·.2)))

variable {fields listed : List (String × Document)} {names : List String} {name : String}
  {value d : Document}

theorem lookup_of_mem (h : (fields.map (·.1)).Nodup) (hmem : (name, value) ∈ fields) :
    fields.lookup name = some value := by
  have hfilter : (name, value) ∈ fields.filter (·.1 == name) := by simpa using hmem
  rw [filter_fst_eq h] at hfilter
  simpa using hfilter

/-- Different fields are found in whatever order they are listed. -/
theorem lookup_perm (hperm : listed.Perm fields) (h : (fields.map (·.1)).Nodup) (name : String) :
    listed.lookup name = fields.lookup name := by
  have hlisted : (listed.map (·.1)).Nodup := (hperm.map _).nodup_iff.2 h
  cases hfound : fields.lookup name with
  | none =>
    rw [List.lookup_eq_none_iff] at hfound ⊢
    exact fun field hfield => hfound field (hperm.mem_iff.1 hfield)
  | some value =>
    obtain ⟨before, after, rfl, -⟩ := List.lookup_eq_some_iff.1 hfound
    exact lookup_of_mem hlisted (hperm.mem_iff.2 (by simp))

theorem field?_eq_lookup (h : (fields.map (·.1)).Nodup) (name : String) :
    field? fields name = some (fields.lookup name) := by
  rw [field?, filter_fst_eq h]
  cases fields.lookup name <;> rfl

theorem fields?_object (h : (fields.map (·.1)).Nodup) (names : List String) :
    (object fields).fields? names = some (names.map fun name => fields.lookup name) :=
  mapM_eq_some_map (field?_eq_lookup h) names

/-- The list of the values of the first fields is read as the object of these fields. -/
theorem fields?_list (hnames : names.Nodup) (hfirst : fields.map (·.1) <+: names) :
    (list (fields.map (·.2))).fields? names =
      some (names.map fun name => fields.lookup name) := by
  obtain ⟨rest, rfl⟩ := hfirst
  obtain ⟨hfields, -, hapart⟩ := List.nodup_append.1 hnames
  have hfound : (fields.map (·.1)).map (fun name => fields.lookup name) =
      (fields.map (·.2)).map some := by
    simp only [List.map_map]
    exact List.map_congr_left fun field hfield => lookup_of_mem hfields hfield
  have hleft : rest.map (fun name => fields.lookup name) = List.replicate rest.length none := by
    rw [List.eq_replicate_iff, List.length_map, List.forall_mem_map]
    refine ⟨rfl, fun name hname => List.lookup_eq_none_iff.2 fun field hfield => ?_⟩
    exact bne_iff_ne.2 (hapart field.1 (List.mem_map_of_mem hfield) name hname).symm
  rw [List.map_append, hfound, hleft, fields?, List.length_append, List.length_map, List.length_map,
    if_pos (Nat.le_add_right _ _), Nat.add_sub_cancel_left]

namespace IsRecord

variable (h : IsRecord fields d) (hnames : names.Nodup) (hfirst : fields.map (·.1) <+: names)
include h hfirst

theorem onlyFields : d.onlyFields names = true := by
  cases h with
  | object hperm =>
    rw [Document.onlyFields, List.all_eq_true]
    intro field hfield
    exact List.contains_iff_mem.2
      (hfirst.subset (List.mem_map_of_mem (hperm.mem_iff.1 hfield)))
  | list => rfl

include hnames

theorem fields?_eq : d.fields? names = some (names.map fun name => fields.lookup name) := by
  have hfields : (fields.map (·.1)).Nodup := hnames.sublist hfirst.sublist
  cases h with
  | object hperm =>
    rw [fields?_object ((hperm.map _).nodup_iff.2 hfields)]
    simp only [lookup_perm hperm hfields]
  | list => exact fields?_list hnames hfirst

theorem record?_eq : format.record? names d = format.record? names (.object fields) := by
  have hobject : IsRecord fields (.object fields) := .object (.refl _)
  simp only [format, h.onlyFields hfirst, hobject.onlyFields hfirst, h.fields?_eq hnames hfirst,
    hobject.fields?_eq hnames hfirst]

end IsRecord

/-- What a document consists of is found in the document itself. -/
theorem format_reads : format.Reads id where
  text _ := rfl
  textOrNull s := by cases s <;> rfl
  choice _ := rfl
  items ds := by simp [format, items?]
  record names fields hnodup hnames := by
    have honly : (object fields).onlyFields names = true := by
      simpa [onlyFields] using hnames
    simp [format, honly, fields?_object hnodup]

/-- A record of certain fields has no other ones. -/
theorem record?_of_unknown (h : ∃ field ∈ fields, field.1 ∉ names) :
    format.record? names (.object fields) = none := by
  obtain ⟨field, hfield, hunknown⟩ := h
  have honly : ¬ (object fields).onlyFields names = true := by
    rw [onlyFields, List.all_eq_true]
    exact fun hall => hunknown (List.contains_iff_mem.1 (hall field hfield))
  exact if_neg honly

end Document

open Document (IsRecord)

/-! ## Choices -/

theorem Scope.ofDocument?_toDocument (s : Scope) : ofDocument? s.toDocument = some s := by
  cases s <;> rfl

theorem EntryKind.ofDocument?_toDocument (k : EntryKind) : ofDocument? k.toDocument = some k := by
  cases k <;> rfl

theorem PluginSpace.ofDocument?_toDocument (space : PluginSpace) :
    ofDocument? space.toDocument = some space :=
  Document.format_reads.named named?_name space

theorem Precedence.ofDocument?_toDocument (p : Precedence) :
    ofDocument? p.toDocument = some p :=
  Document.format_reads.named named?_name p

/-! ## Identities, artifacts and entries -/

/-- The documents that an identity is written as. -/
def Identity.Written (i : Identity) : Document → Prop :=
  IsRecord [("group", .text i.group), ("name", .text i.name), ("type", .text i.kind)]

/-- The documents that an artifact is written as. -/
def Artifact.Written (a : Artifact) (d : Document) : Prop :=
  ∃ key, a.identity.Written key ∧
    IsRecord [("key", key), ("version", .text a.version), ("scope", a.scope.toDocument)] d

/-- The documents that an entry is written as. -/
def Entry.Written (e : Entry) : Document → Prop :=
  IsRecord [("location", .text e.location), ("kind", e.kind.toDocument)]

theorem Identity.ofDocument?_of_written {i : Identity} {d : Document} (h : i.Written d) :
    ofDocument? d = some i := by
  rw [ofDocument?, h.fields?_eq (by decide) (List.prefix_refl fieldNames)]
  rfl

theorem Artifact.ofDocument?_of_written {a : Artifact} {d : Document} (h : a.Written d) :
    ofDocument? d = some a := by
  obtain ⟨key, hkey, hrecord⟩ := h
  rw [ofDocument?, hrecord.fields?_eq (by decide) (List.prefix_refl fieldNames)]
  simp [fieldNames, List.lookup_cons, Identity.ofDocument?_of_written hkey,
    Scope.ofDocument?_toDocument, Document.text?]

theorem Entry.ofDocument?_of_written {e : Entry} {d : Document} (h : e.Written d) :
    ofDocument? d = some e := by
  rw [ofDocument?, h.fields?_eq (by decide) (List.prefix_refl fieldNames)]
  simp [fieldNames, List.lookup_cons, EntryKind.ofDocument?_toDocument, Document.text?]

/-! ## Extensions and configurations -/

/-- The documents that an extension is written as. A metadata location that there is not may also be
left out. -/
def Extension.Written (e : Extension) (d : Document) : Prop :=
  IsRecord e.documentFields d ∨
    e.metadataLocation = none ∧ IsRecord (e.documentFields.take 2) d

/-- The documents that a configuration is written as. -/
def Configuration.Written (c : Configuration) (d : Document) : Prop :=
  ∃ extensions, List.Forall₂ Extension.Written c.extensions extensions ∧
    IsRecord (c.documentFields extensions) d

theorem Extension.written_toDocument (e : Extension) : e.Written e.toDocument := by
  obtain ⟨name, artifact, location⟩ := e
  cases location with
  | none => exact .inr ⟨rfl, .object (.refl _)⟩
  | some location => exact .inl (.object (.refl _))

theorem Configuration.written_toDocument (c : Configuration) : c.Written c.toDocument := by
  refine ⟨c.extensions.map Extension.toDocument, ?_, .object (.refl _)⟩
  rw [List.forall₂_map_right_iff, List.forall₂_same]
  exact fun e _ => e.written_toDocument

theorem Extension.ofDocument?_of_written {e : Extension} {d : Document} (h : e.Written d) :
    ofDocument? d = some e := by
  obtain hrecord | ⟨hnone, hrecord⟩ := h
  · rw [ofDocument?, read?, hrecord.record?_eq (by decide) (List.prefix_refl fieldNames), ← read?]
    exact read?_documentFields Document.format_reads e
  · rw [ofDocument?, read?, hrecord.record?_eq (by decide) (List.take_prefix 2 fieldNames), ← read?]
    exact read?_take Document.format_reads e hnone

theorem Extension.mapM_of_written {es : List Extension} {ds : List Document}
    (h : List.Forall₂ Written es ds) : ds.mapM ofDocument? = some es := by
  induction h with
  | nil => rfl
  | cons he _ ih => simp [List.mapM_cons, ofDocument?_of_written he, ih]

theorem Configuration.ofDocument?_of_written {c : Configuration} {d : Document}
    (h : c.Written d) : ofDocument? d = some c := by
  obtain ⟨extensions, hextensions, hrecord⟩ := h
  rw [ofDocument?, read?, hrecord.record?_eq (by decide) (List.prefix_refl fieldNames), ← read?]
  exact read?_documentFields Document.format_reads c (Extension.mapM_of_written hextensions)

/-! ## The result -/

/-- **Values are read back from the documents they are written as.** A choice is read from its name,
and any scope from its document. A record is read from the object of its fields, in whatever order,
and from the list of their values, and so is every record within it. An object with another field is
no extension and no configuration. -/
theorem values_read_back :
    (∀ s : Scope, Scope.ofDocument? s.toDocument = some s) ∧
    (∀ k : EntryKind, EntryKind.ofDocument? k.toDocument = some k) ∧
    (∀ space : PluginSpace, PluginSpace.ofDocument? space.toDocument = some space) ∧
    (∀ p : Precedence, Precedence.ofDocument? p.toDocument = some p) ∧
    (∀ i : Identity, i.Written i.toDocument ∧
      ∀ d, i.Written d → Identity.ofDocument? d = some i) ∧
    (∀ a : Artifact, a.Written a.toDocument ∧
      ∀ d, a.Written d → Artifact.ofDocument? d = some a) ∧
    (∀ e : Entry, e.Written e.toDocument ∧ ∀ d, e.Written d → Entry.ofDocument? d = some e) ∧
    (∀ e : Extension, e.Written e.toDocument ∧
      ∀ d, e.Written d → Extension.ofDocument? d = some e) ∧
    (∀ c : Configuration, c.Written c.toDocument ∧
      ∀ d, c.Written d → Configuration.ofDocument? d = some c) ∧
    ∀ fields : List (String × Document),
      ((∃ field ∈ fields, field.1 ∉ Extension.fieldNames) →
        Extension.ofDocument? (.object fields) = none) ∧
      ((∃ field ∈ fields, field.1 ∉ Configuration.fieldNames) →
        Configuration.ofDocument? (.object fields) = none) := by
  refine ⟨Scope.ofDocument?_toDocument, EntryKind.ofDocument?_toDocument,
    PluginSpace.ofDocument?_toDocument, Precedence.ofDocument?_toDocument, fun i => ⟨?_, ?_⟩,
    fun a => ⟨?_, ?_⟩, fun e => ⟨?_, ?_⟩, fun e => ⟨?_, ?_⟩, fun c => ⟨?_, ?_⟩,
    fun fields => ⟨fun h => ?_, fun h => ?_⟩⟩
  · exact .object (.refl _)
  · exact fun d => Identity.ofDocument?_of_written
  · exact ⟨a.identity.toDocument, .object (.refl _), .object (.refl _)⟩
  · exact fun d => Artifact.ofDocument?_of_written
  · exact .object (.refl _)
  · exact fun d => Entry.ofDocument?_of_written
  · exact e.written_toDocument
  · exact fun d => Extension.ofDocument?_of_written
  · exact c.written_toDocument
  · exact fun d => Configuration.ofDocument?_of_written
  · rw [Extension.ofDocument?, Extension.read?, Document.record?_of_unknown h]
    rfl
  · rw [Configuration.ofDocument?, Configuration.read?, Document.record?_of_unknown h]
    rfl

/-- An artifact whose scope only looks like one with a name of its own. -/
def seemingTest : Artifact := ⟨⟨"g", "a", "jar"⟩, "1", .other "test"⟩

/-- Its fields in another order, and the identity as a list. -/
def seemingTestDocument : Document :=
  .object [("scope", .object [("other", .text "test")]), ("version", .text "1"),
    ("key", .list [.text "g", .text "a", .text "jar"])]

/-- A configuration with one extension, which has no metadata location. -/
def extended : Configuration where
  pluginSpace := .extensions
  extensions := [⟨"x", "g:a:*", none⟩]

/-- Its fields as a list, with the extension as a list of three. -/
def extendedDocument : Document :=
  .list [.text "", .text "extensions", .list [.list [.text "x", .text "g:a:*", .null]],
    .text "container", .list (extended.bootPrefixes.map .text), .text ".", .null,
    .text extended.dependencyGraphFile, .text "->", .text ".class", .text "CLASSPATH"]

/-- An extension with one field more. -/
def extraFields : List (String × Document) :=
  [("name", .text "x"), ("artifact", .text "g:a:*"), ("kind", .null)]

theorem listed_read_back :
    seemingTest.Written seemingTestDocument ∧
    Artifact.ofDocument? seemingTestDocument = some seemingTest ∧
    extended.Written extendedDocument ∧
    Configuration.ofDocument? extendedDocument = some extended ∧
    (∃ field ∈ extraFields, field.1 ∉ Extension.fieldNames) ∧
    Extension.ofDocument? (.object extraFields) = none := by
  obtain ⟨-, -, -, -, -, hartifact, -, -, hconfiguration, hunknown⟩ := values_read_back
  let fields : List (String × Document) :=
    [("key", .list [.text "g", .text "a", .text "jar"]), ("version", .text "1"),
      ("scope", .object [("other", .text "test")])]
  have hseeming : seemingTest.Written seemingTestDocument :=
    ⟨_, .list, .object (List.reverse_perm fields)⟩
  have hextended : extended.Written extendedDocument := ⟨_, .cons (.inl .list) .nil, .list⟩
  have hextra : ∃ field ∈ extraFields, field.1 ∉ Extension.fieldNames :=
    ⟨("kind", .null), by simp [extraFields], by decide⟩
  exact ⟨hseeming, (hartifact seemingTest).2 _ hseeming, hextended,
    (hconfiguration extended).2 _ hextended, hextra, (hunknown extraFields).1 hextra⟩

end TierIsolation
