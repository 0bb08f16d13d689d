/-!
# Ordered sets and tables

`OrderedSet α` is a finite set kept as its strictly increasing list of members, `Table β` a finite
map from strings kept in increasing order of its keys. Both have one representation per value, so
equal members, or equal look-ups, make equal sets and tables (`OrderedSet.ext`, `Table.ext`).
`OrderedSet.mem_ofList`, `OrderedSet.mem_filter`, `Table.get?_insert` and
`Table.get?_ofList_eq_some_iff` say what the operations do.
-/

namespace TierIsolation

open Std

/-! ## Insertion into increasing lists -/

namespace Increasing

variable {κ α : Type} [Ord κ]

/-- `xs` is strictly increasing in `key`. -/
def ByKey (key : α → κ) (xs : List α) : Prop :=
  xs.Pairwise fun a b => compare (key a) (key b) = .lt

/-- Inserts `a` at its place; an element with the same key is replaced. -/
def insert (key : α → κ) (a : α) : List α → List α
  | [] => [a]
  | b :: rest =>
    match compare (key a) (key b) with
    | .lt => a :: b :: rest
    | .eq => a :: rest
    | .gt => b :: insert key a rest

theorem mem_insert_imp {key : α → κ} {a x : α} {xs : List α} (h : x ∈ insert key a xs) :
    x = a ∨ x ∈ xs := by
  induction xs with
  | nil => simpa [insert] using h
  | cons b rest ih =>
    simp only [insert] at h
    split at h
    · simpa using h
    · rcases List.mem_cons.1 h with h | h
      · exact .inl h
      · exact .inr (List.mem_cons_of_mem _ h)
    · rcases List.mem_cons.1 h with h | h
      · exact .inr (by simp [h])
      · rcases ih h with h | h
        · exact .inl h
        · exact .inr (List.mem_cons_of_mem _ h)

theorem byKey_insert [TransOrd κ] [LawfulEqOrd κ] {key : α → κ} {a : α} {xs : List α}
    (h : ByKey key xs) : ByKey key (insert key a xs) := by
  induction xs with
  | nil => simp [insert, ByKey]
  | cons b rest ih =>
    obtain ⟨hb, hrest⟩ := List.pairwise_cons.1 h
    simp only [insert]
    split
    · rename_i hab
      refine List.pairwise_cons.2 ⟨fun x hx => ?_, h⟩
      rcases List.mem_cons.1 hx with rfl | hx
      · exact hab
      · exact TransCmp.lt_trans hab (hb x hx)
    · rename_i hab
      have hab := LawfulEqCmp.eq_of_compare hab
      exact List.pairwise_cons.2 ⟨fun x hx => hab ▸ hb x hx, hrest⟩
    · rename_i hab
      refine List.pairwise_cons.2 ⟨fun x hx => ?_, ih hrest⟩
      rcases mem_insert_imp hx with rfl | hx
      · exact OrientedCmp.lt_of_gt hab
      · exact hb x hx

theorem ByKey.nodup [TransOrd κ] {key : α → κ} {xs : List α} (h : ByKey key xs) : xs.Nodup := by
  refine h.imp fun {a b} hab => ?_
  rintro rfl
  simp [ReflCmp.compare_self] at hab

/-- There is one increasing list of given elements. -/
theorem ByKey.eq_of_mem_iff [TransOrd κ] {key : α → κ} {xs ys : List α} (hxs : ByKey key xs)
    (hys : ByKey key ys) (h : ∀ a, a ∈ xs ↔ a ∈ ys) : xs = ys := by
  have hperm : xs.Perm ys := (List.perm_ext_iff_of_nodup hxs.nodup hys.nodup).2 h
  refine hperm.eq_of_pairwise ?_ hxs hys
  intro a b _ _ hab hba
  have hgt : compare (key b) (key a) = .gt := OrientedCmp.gt_of_lt hab
  rw [hba] at hgt
  cases hgt

/-- What is found for a key after an insertion; the list need not be increasing for this. -/
theorem lookup_insert {β : Type} [DecidableEq κ] [TransOrd κ] [LawfulEqOrd κ] {k j : κ} {v : β}
    {xs : List (κ × β)} :
    (insert Prod.fst (k, v) xs).lookup j = if j = k then some v else xs.lookup j := by
  induction xs with
  | nil =>
    by_cases h : j = k
    · simp [insert, h]
    · simp [insert, List.lookup_cons, beq_eq_false_iff_ne.2 h, h]
  | cons b rest ih =>
    obtain ⟨i, w⟩ := b
    simp only [insert]
    split
    · by_cases h : j = k
      · simp [h]
      · simp [List.lookup_cons, beq_eq_false_iff_ne.2 h, h]
    · rename_i hki
      obtain rfl : k = i := LawfulEqCmp.eq_of_compare hki
      by_cases h : j = k
      · simp [h]
      · simp [List.lookup_cons, beq_eq_false_iff_ne.2 h, h]
    · rename_i hki
      -- the key passed over is smaller than `k`, so it is another one
      have hne : k ≠ i := by
        rintro rfl
        simp [ReflCmp.compare_self] at hki
      rw [List.lookup_cons, ih, List.lookup_cons]
      by_cases h : j = i
      · subst h
        simp [Ne.symm hne]
      · rw [beq_eq_false_iff_ne.2 h]

/-- A new key is added to the list; the list need not be increasing for this. -/
theorem perm_insert {β : Type} [DecidableEq κ] [LawfulEqOrd κ] {k : κ} {v : β}
    {xs : List (κ × β)} (h : xs.lookup k = none) :
    (insert Prod.fst (k, v) xs).Perm ((k, v) :: xs) := by
  induction xs with
  | nil => exact .refl _
  | cons b rest ih =>
    obtain ⟨i, w⟩ := b
    rw [List.lookup_cons] at h
    simp only [insert]
    split
    · exact .refl _
    · rename_i hki
      obtain rfl : k = i := LawfulEqCmp.eq_of_compare hki
      simp at h
    · split at h
      · cases h
      · exact ((ih h).cons _).trans (.swap _ _ _)

/-- What is found for a key is what the list has with it, in an increasing list. -/
theorem mem_iff_lookup [DecidableEq κ] [TransOrd κ] {β : Type} {k : κ} {v : β} {xs : List (κ × β)}
    (h : ByKey Prod.fst xs) : (k, v) ∈ xs ↔ xs.lookup k = some v := by
  induction xs with
  | nil => simp
  | cons b rest ih =>
    obtain ⟨i, w⟩ := b
    obtain ⟨hb, hrest⟩ := List.pairwise_cons.1 h
    rw [List.lookup_cons, List.mem_cons, ih hrest]
    by_cases hk : k = i
    · subst hk
      -- the key does not occur again
      have hnot : (k, v) ∉ rest := fun hmem => by
        have := hb (k, v) hmem
        simp [ReflCmp.compare_self] at this
      rw [ih hrest] at hnot
      simp [hnot, eq_comm]
    · simp [beq_eq_false_iff_ne.2 hk, hk]

end Increasing

/-! ## Sets -/

/-- A finite set, listed in strictly increasing order. -/
structure OrderedSet (α : Type) [Ord α] where
  toList : List α
  increasing : Increasing.ByKey id toList

namespace OrderedSet

variable {α : Type} [Ord α]

instance [DecidableEq α] : DecidableEq (OrderedSet α) := fun s t =>
  decidable_of_iff (s.toList = t.toList)
    ⟨fun h => by cases s; cases t; cases h; rfl, fun h => h ▸ rfl⟩

instance : Membership α (OrderedSet α) := ⟨fun s a => a ∈ s.toList⟩

instance [DecidableEq α] (a : α) (s : OrderedSet α) : Decidable (a ∈ s) :=
  inferInstanceAs (Decidable (a ∈ s.toList))

theorem mem_toList {s : OrderedSet α} {a : α} : a ∈ s.toList ↔ a ∈ s := Iff.rfl

def empty : OrderedSet α := ⟨[], by simp [Increasing.ByKey]⟩

instance : EmptyCollection (OrderedSet α) := ⟨empty⟩

instance : Inhabited (OrderedSet α) := ⟨empty⟩

def size (s : OrderedSet α) : Nat := s.toList.length

/-- The members satisfying `p`. -/
def filter (p : α → Bool) (s : OrderedSet α) : OrderedSet α :=
  ⟨s.toList.filter p, s.increasing.filter p⟩

@[simp] theorem mem_filter {p : α → Bool} {s : OrderedSet α} {a : α} :
    a ∈ s.filter p ↔ a ∈ s ∧ p a = true :=
  List.mem_filter

variable [TransOrd α] [LawfulEqOrd α]

def insert (a : α) (s : OrderedSet α) : OrderedSet α :=
  ⟨Increasing.insert id a s.toList, Increasing.byKey_insert s.increasing⟩

/-- The set with all members of a list added. -/
def insertMany (s : OrderedSet α) (xs : List α) : OrderedSet α :=
  xs.foldl (fun s a => s.insert a) s

/-- The set of the members of a list. -/
def ofList (xs : List α) : OrderedSet α := empty.insertMany xs

omit [TransOrd α] [LawfulEqOrd α] in
@[simp] theorem not_mem_empty {a : α} : ¬ a ∈ (empty : OrderedSet α) :=
  List.not_mem_nil

@[simp] theorem mem_insert {a x : α} {s : OrderedSet α} : x ∈ s.insert a ↔ x = a ∨ x ∈ s := by
  refine ⟨Increasing.mem_insert_imp, fun h => ?_⟩
  obtain ⟨xs, hxs⟩ := s
  change x ∈ Increasing.insert id a xs
  replace h : x = a ∨ x ∈ xs := h
  clear hxs
  induction xs with
  | nil => simpa [Increasing.insert] using h
  | cons b rest ih =>
    simp only [Increasing.insert]
    split
    · simpa using h
    · rename_i hab
      have hab : a = b := LawfulEqCmp.eq_of_compare hab
      simpa [hab] using h
    · rcases h with h | h
      · exact List.mem_cons_of_mem _ (ih (.inl h))
      · rcases List.mem_cons.1 h with h | h
        · simp [h]
        · exact List.mem_cons_of_mem _ (ih (.inr h))

@[simp] theorem mem_insertMany {x : α} {s : OrderedSet α} {xs : List α} :
    x ∈ s.insertMany xs ↔ x ∈ s ∨ x ∈ xs := by
  induction xs generalizing s with
  | nil => simp [insertMany]
  | cons a xs ih =>
    have : s.insertMany (a :: xs) = (s.insert a).insertMany xs := rfl
    rw [this, ih, mem_insert]
    simp only [List.mem_cons]
    grind

@[simp] theorem mem_ofList {x : α} {xs : List α} : x ∈ ofList xs ↔ x ∈ xs := by
  simp [ofList]

/-! ### Size and disjointness -/

omit [LawfulEqOrd α] in
theorem nodup_toList (s : OrderedSet α) : s.toList.Nodup := s.increasing.nodup

omit [LawfulEqOrd α] in
/-- Sets with the same members are equal. -/
theorem ext {s t : OrderedSet α} (h : ∀ a, a ∈ s ↔ a ∈ t) : s = t := by
  have hlist : s.toList = t.toList := s.increasing.eq_of_mem_iff t.increasing h
  cases s
  cases t
  cases hlist
  rfl

/-- A list without repetition has as many elements as the set of its elements has members. -/
theorem size_ofList {xs : List α} (h : xs.Nodup) : (ofList xs).size = xs.length := by
  refine List.Perm.length_eq ((List.perm_ext_iff_of_nodup (nodup_toList _) h).2 fun a => ?_)
  exact mem_ofList

/-- No member in common. -/
def Disjoint (s t : OrderedSet α) : Prop := ∀ a ∈ s, a ∉ t

end OrderedSet

/-! ## Tables -/

/-- A finite map from strings, listed in increasing order of the keys. -/
structure Table (β : Type) where
  entries : List (String × β)
  increasing : Increasing.ByKey Prod.fst entries

namespace Table

variable {β : Type}

instance [DecidableEq β] : DecidableEq (Table β) := fun s t =>
  decidable_of_iff (s.entries = t.entries)
    ⟨fun h => by cases s; cases t; cases h; rfl, fun h => h ▸ rfl⟩

def empty : Table β := ⟨[], by simp [Increasing.ByKey]⟩

instance : Inhabited (Table β) := ⟨empty⟩

def get? (t : Table β) (key : String) : Option β := t.entries.lookup key

def size (t : Table β) : Nat := t.entries.length

/-- The table in which `key` has the value `value`, whatever it had before. -/
def insert (t : Table β) (key : String) (value : β) : Table β :=
  ⟨Increasing.insert Prod.fst (key, value) t.entries, Increasing.byKey_insert t.increasing⟩

/-- The table of a list of pairs; of two pairs with one key the later counts. -/
def ofList (pairs : List (String × β)) : Table β :=
  pairs.foldl (fun t (key, value) => t.insert key value) empty

@[simp] theorem get?_empty (key : String) : (empty : Table β).get? key = none := rfl

@[simp] theorem get?_insert (t : Table β) (key k : String) (value : β) :
    (t.insert key value).get? k = if k = key then some value else t.get? k :=
  Increasing.lookup_insert

theorem mem_entries {t : Table β} {key : String} {value : β} :
    (key, value) ∈ t.entries ↔ t.get? key = some value :=
  Increasing.mem_iff_lookup t.increasing

/-- Tables that give the same for every key are equal. -/
theorem ext {t u : Table β} (h : ∀ key, t.get? key = u.get? key) : t = u := by
  have hentries : t.entries = u.entries := by
    refine t.increasing.eq_of_mem_iff u.increasing fun (key, value) => ?_
    rw [mem_entries, mem_entries, h]
  cases t
  cases u
  cases hentries
  rfl

theorem get?_ofList (pairs : List (String × β)) (key : String) :
    (ofList pairs).get? key = pairs.reverse.lookup key := by
  suffices hany : ∀ t : Table β,
      (pairs.foldl (fun t (key, value) => t.insert key value) t).get? key =
        (pairs.reverse.lookup key).or (t.get? key) by
    rw [ofList, hany, get?_empty, Option.or_none]
  intro t
  induction pairs generalizing t with
  | nil => rfl
  | cons pair rest ih =>
    obtain ⟨first, value⟩ := pair
    rw [List.foldl_cons, ih, get?_insert, List.reverse_cons, List.lookup_append, Option.or_assoc]
    by_cases h : key = first
    · simp [h]
    · simp [h, List.lookup_cons, beq_false_of_ne h]

/-- Of several pairs with one key, the table has the last. -/
theorem get?_ofList_eq_some_iff {pairs : List (String × β)} {key : String} {value : β} :
    (ofList pairs).get? key = some value ↔
      ∃ front back, pairs = front ++ (key, value) :: back ∧ ∀ pair ∈ back, pair.1 ≠ key := by
  rw [get?_ofList, List.lookup_eq_some_iff]
  constructor
  · rintro ⟨back, front, hpairs, hback⟩
    refine ⟨front.reverse, back.reverse, ?_, ?_⟩
    · rw [← List.reverse_reverse pairs, hpairs]
      simp
    · exact fun pair hpair => (bne_iff_ne.1 (hback pair (List.mem_reverse.1 hpair))).symm
  · rintro ⟨front, back, rfl, hback⟩
    refine ⟨back.reverse, front.reverse, by simp, fun pair hpair => ?_⟩
    exact bne_iff_ne.2 (hback pair (List.mem_reverse.1 hpair)).symm

theorem get?_ofList_eq_none_iff {pairs : List (String × β)} {key : String} :
    (ofList pairs).get? key = none ↔ ∀ pair ∈ pairs, pair.1 ≠ key := by
  simp only [get?_ofList, List.lookup_eq_none_iff, List.mem_reverse, bne_iff_ne, ne_comm]

/-- A table is made of its pairs, in whatever order and however often they are listed. -/
theorem ofList_eq_of_mem_iff {t : Table β} {pairs : List (String × β)}
    (h : ∀ key value, (key, value) ∈ pairs ↔ t.get? key = some value) : ofList pairs = t := by
  refine ext fun key => ?_
  cases hget : t.get? key with
  | none =>
    rw [get?_ofList_eq_none_iff]
    rintro ⟨_, value⟩ hpair rfl
    rw [(h _ value).1 hpair] at hget
    cases hget
  | some value =>
    have hmem := (h key value).2 hget
    cases hfound : (ofList pairs).get? key with
    | none => exact absurd rfl (get?_ofList_eq_none_iff.1 hfound _ hmem)
    | some found =>
      obtain ⟨front, back, hsplit, -⟩ := get?_ofList_eq_some_iff.1 hfound
      have hlast : (key, found) ∈ pairs := by
        rw [hsplit]
        simp
      rw [← hget, (h key found).1 hlast]

end Table

end TierIsolation
