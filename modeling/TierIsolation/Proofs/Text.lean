import Mathlib.Data.List.DropRight
import Mathlib.Data.List.Infix
import TierIsolation.Text

/-!
# Text that is put together

What the operations on text make of a text that consists of parts.

* `stripped_dropBothWhile`, `Stripped.dropBothWhile_eq`: what is left at the ends of a text, and which
  texts lose nothing.
* `trim_word`: of white space around a word, only what follows other text stays.
* `map_trim_splitOn_trim`: white space around a text is around its first or its last piece.
* `splitOnce_append`, `occurs_iff`: where a needle occurs, and where it cannot.
* `afterLast_eq_some_iff`: what stands behind its last occurrence.
* `words_append_cons`: no word reaches over white space.
* `lines_append`, `lines_append_newline`: after a line feed, a new line begins.
-/

namespace TierIsolation.Text

variable {p : Char → Bool} {a b s xs ys w : List Char} {c : Char}

theorem solid_of_all (h : w.all (!isBlank ·) = true) : ∀ c ∈ w, isBlank c = false := by
  simpa using h

/-! ## Trimming -/

@[simp] theorem dropEndWhile_nil : dropEndWhile p [] = [] := rfl

@[simp] theorem dropEndWhile_dropEndWhile :
    dropEndWhile p (dropEndWhile p xs) = dropEndWhile p xs :=
  List.rdropWhile_idempotent p xs

theorem dropEndWhile_prefix (p : Char → Bool) (xs : List Char) : dropEndWhile p xs <+: xs :=
  List.rdropWhile_prefix p xs

theorem dropBothWhile_infix (p : Char → Bool) (xs : List Char) : dropBothWhile p xs <:+: xs :=
  ( dropEndWhile_prefix p _).isInfix.trans (List.dropWhile_suffix p).isInfix

theorem trim_infix (s : List Char) : trim s <:+: s := dropBothWhile_infix isBlank s

theorem dropEndWhile_eq_nil_iff : dropEndWhile p xs = [] ↔ ∀ c ∈ xs, p c = true :=
  List.rdropWhile_eq_nil_iff

theorem dropEndWhile_eq_nil (h : ∀ c ∈ xs, p c = true) : dropEndWhile p xs = [] :=
  dropEndWhile_eq_nil_iff.2 h

theorem dropEndWhile_append_of_all (h : ∀ c ∈ ys, p c = true) :
    dropEndWhile p (xs ++ ys) = dropEndWhile p xs := by
  rw [dropEndWhile, List.reverse_append, List.dropWhile_append_of_pos (by simpa using h),
    dropEndWhile]

/-- What stands before a character that stays, stays. -/
theorem dropEndWhile_append_cons (xs ys : List Char) (hc : p c = false) :
    dropEndWhile p (xs ++ c :: ys) = xs ++ c :: dropEndWhile p ys := by
  simp only [dropEndWhile, List.reverse_append, List.reverse_cons, List.append_assoc,
    List.dropWhile_append, List.singleton_append, List.dropWhile_cons, hc]
  split
  · rename_i hnone
    simp [List.isEmpty_iff.1 hnone]
  · simp

theorem dropEndWhile_cons (hc : p c = false) (xs : List Char) :
    dropEndWhile p (c :: xs) = c :: dropEndWhile p xs :=
  dropEndWhile_append_cons [] xs hc

/-- If something of the second part stays, all of the first part does. -/
theorem dropEndWhile_append (h : ∃ c ∈ ys, p c = false) :
    dropEndWhile p (xs ++ ys) = xs ++ dropEndWhile p ys := by
  obtain ⟨c, hmem, hc⟩ := h
  obtain ⟨front, rest, rfl⟩ := List.append_of_mem hmem
  rw [← List.append_assoc, dropEndWhile_append_cons _ _ hc, dropEndWhile_append_cons _ _ hc,
    List.append_assoc]

/-- A text without such characters stays. -/
theorem dropEndWhile_append_word (hw : ∀ c ∈ w, p c = false) (ys : List Char) :
    dropEndWhile p (w ++ ys) = w ++ dropEndWhile p ys := by
  induction w with
  | nil => rfl
  | cons c rest ih =>
    have hrest := ih fun d hd => hw d (List.mem_cons_of_mem _ hd)
    rw [List.cons_append, dropEndWhile_cons (hw c List.mem_cons_self), hrest, List.cons_append]

theorem dropEndWhile_eq_self (hw : ∀ c ∈ w, p c = false) : dropEndWhile p w = w := by
  have h := dropEndWhile_append_word hw []
  rwa [List.append_nil, dropEndWhile_nil, List.append_nil] at h

/-- Around a word, only what follows other text stays. -/
theorem dropBothWhile_word (hxs : ∀ c ∈ xs, p c = true) (hw : ∀ c ∈ w, p c = false)
    (hne : w ≠ []) (ys : List Char) :
    dropBothWhile p (xs ++ (w ++ ys)) = w ++ dropEndWhile p ys := by
  obtain ⟨c, rest, rfl⟩ := List.exists_cons_of_ne_nil hne
  rw [dropBothWhile, List.dropWhile_append_of_pos hxs, List.cons_append,
    List.dropWhile_cons_of_neg (by simp [hw c List.mem_cons_self]), ← List.cons_append,
    dropEndWhile_append_word hw]

/-- Of what stands around a text, nothing stays. -/
theorem dropBothWhile_append_of_all (hys : ∀ c ∈ ys, p c = true) :
    dropBothWhile p (xs ++ ys) = dropBothWhile p xs := by
  simp only [dropBothWhile, List.dropWhile_append]
  split
  · rename_i hxs
    rw [List.isEmpty_iff.1 hxs, List.dropWhile_eq_nil_iff.2 hys]
  · exact dropEndWhile_append_of_all hys

theorem dropBothWhile_of_all_append (hxs : ∀ c ∈ xs, p c = true) :
    dropBothWhile p (xs ++ ys) = dropBothWhile p ys := by
  simp only [dropBothWhile, List.dropWhile_append_of_pos hxs]

/-- No character with the property stands at either end. -/
def Stripped (p : Char → Bool) (s : List Char) : Prop :=
  (∀ c ∈ s.head?, p c = false) ∧ ∀ c ∈ s.getLast?, p c = false

theorem stripped_of_ends {c d : Char} (hhead : s.head? = some c) (hlast : s.getLast? = some d)
    (hc : p c = false) (hd : p d = false) : Stripped p s := by
  rw [Stripped, hhead, hlast]
  refine ⟨?_, ?_⟩
  · rintro _ ⟨⟩
    exact hc
  · rintro _ ⟨⟩
    exact hd

theorem head?_dropWhile_eq_false (p : Char → Bool) (s : List Char) :
    ∀ c ∈ (s.dropWhile p).head?, p c = false := by
  intro c hc
  have hhead := List.head?_dropWhile_not p s
  rwa [hc] at hhead

theorem stripped_dropBothWhile (p : Char → Bool) (s : List Char) :
    Stripped p (dropBothWhile p s) := by
  constructor
  · have hhead := head?_dropWhile_eq_false p s
    rw [dropBothWhile]
    cases h : s.dropWhile p with
    | nil => simp
    | cons c rest =>
      rw [h] at hhead
      rw [dropEndWhile_cons (hhead c rfl)]
      exact hhead
  · rw [dropBothWhile, dropEndWhile, List.getLast?_reverse]
    exact head?_dropWhile_eq_false p _

theorem Stripped.dropBothWhile_eq (h : Stripped p s) : dropBothWhile p s = s := by
  obtain ⟨hhead, hlast⟩ := h
  have hend : dropEndWhile p s = s := by
    refine List.rdropWhile_eq_self_iff.2 fun hne => ?_
    simp [hlast _ (List.getLast?_eq_some_getLast hne)]
  cases s with
  | nil => rfl
  | cons c rest =>
    rw [dropBothWhile, List.dropWhile_cons_of_neg (by simp [hhead c rfl]), hend]

/-- Characters may be replaced by others that are alike in this respect. -/
theorem Stripped.map {f : Char → Char} (hf : ∀ c, p (f c) = p c) (h : Stripped p s) :
    Stripped p (s.map f) := by
  simpa [Stripped, hf] using h

theorem dropBothWhile_eq_self (hw : ∀ c ∈ w, p c = false) : dropBothWhile p w = w :=
  Stripped.dropBothWhile_eq
    ⟨fun _ hc => hw _ (List.mem_of_mem_head? hc), fun _ hc => hw _ (List.mem_of_getLast? hc)⟩

/-- Around a word, only the white space stays that other text follows. -/
theorem trim_word (hxs : ∀ c ∈ xs, isBlank c = true) (hw : ∀ c ∈ w, isBlank c = false)
    (hne : w ≠ []) (ys : List Char) : trim (xs ++ (w ++ ys)) = w ++ dropEndWhile isBlank ys :=
  dropBothWhile_word hxs hw hne ys

theorem trim_word_append (hw : ∀ c ∈ w, isBlank c = false) (hne : w ≠ []) (ys : List Char) :
    trim (w ++ ys) = w ++ dropEndWhile isBlank ys := by
  have hnone : ∀ c ∈ ([] : List Char), isBlank c = true := by simp
  exact trim_word hnone hw hne ys

theorem trim_eq_self (hw : ∀ c ∈ w, isBlank c = false) : trim w = w := dropBothWhile_eq_self hw

theorem trim_append_blank (hys : ∀ c ∈ ys, isBlank c = true) : trim (xs ++ ys) = trim xs :=
  dropBothWhile_append_of_all hys

theorem trim_blank_append (hxs : ∀ c ∈ xs, isBlank c = true) : trim (xs ++ ys) = trim ys :=
  dropBothWhile_of_all_append hxs

theorem stripped_trim (s : List Char) : Stripped isBlank (trim s) := stripped_dropBothWhile isBlank s

theorem trim_of_stripped (h : Stripped isBlank s) : trim s = s := h.dropBothWhile_eq

@[simp] theorem trim_trim (s : List Char) : trim (trim s) = trim s :=
  trim_of_stripped (stripped_trim s)

/-- Of a text that is only white space nothing is left. -/
theorem isEmpty_trim (s : List Char) : (trim s).isEmpty = blank s := by
  rw [Bool.eq_iff_iff, List.isEmpty_iff, blank, List.all_eq_true]
  constructor
  · intro h c hc
    rw [trim, dropBothWhile, dropEndWhile_eq_nil_iff] at h
    rw [← List.takeWhile_append_dropWhile (p := isBlank) (l := s)] at hc
    obtain hc | hc := List.mem_append.1 hc
    · exact List.mem_takeWhile_imp hc
    · exact h c hc
  · intro h
    rw [trim, dropBothWhile, List.dropWhile_eq_nil_iff.2 h, dropEndWhile_nil]

/-- A text is what is left of it between the white space around it. -/
theorem exists_around_trim (s : List Char) : ∃ xs ys, (∀ c ∈ xs, isBlank c = true) ∧
    (∀ c ∈ ys, isBlank c = true) ∧ s = xs ++ (trim s ++ ys) := by
  refine ⟨s.takeWhile isBlank, (s.dropWhile isBlank).rtakeWhile isBlank,
    fun c hc => List.mem_takeWhile_imp hc, fun c hc => List.mem_rtakeWhile_imp hc, ?_⟩
  have hrest : trim s ++ (s.dropWhile isBlank).rtakeWhile isBlank = s.dropWhile isBlank :=
    List.rdropWhile_append_rtakeWhile
  rw [hrest, List.takeWhile_append_dropWhile]

theorem blank_eq_false_iff : blank s = false ↔ ∃ c ∈ s, isBlank c = false := by
  simp [blank]

/-! ## Searching and cutting -/

/-- A piece consists of characters of the text at which it is not cut. -/
theorem of_mem_splitOnP {piece : List Char} (h : piece ∈ s.splitOnP p) (hc : c ∈ piece) :
    c ∈ s ∧ p c = false := by
  induction s generalizing piece with
  | nil =>
    rw [List.splitOnP_nil, List.mem_singleton] at h
    rw [h] at hc
    cases hc
  | cons d rest ih =>
    have hrest {piece : List Char} (h : piece ∈ rest.splitOnP p) (hc : c ∈ piece) :
        c ∈ d :: rest ∧ p c = false := (ih h hc).imp_left (List.mem_cons_of_mem d)
    obtain ⟨first, others, hpieces⟩ := List.exists_cons_of_ne_nil (List.splitOnP_ne_nil p rest)
    rw [List.splitOnP_cons_eq_if_modifyHead] at h
    split at h
    · obtain rfl | h := List.mem_cons.1 h
      · cases hc
      · exact hrest h hc
    · rename_i hd
      rw [hpieces, List.modifyHead_cons] at h
      obtain rfl | h := List.mem_cons.1 h
      · obtain rfl | hc := List.mem_cons.1 hc
        · exact ⟨List.mem_cons_self, Bool.eq_false_iff.2 hd⟩
        · exact hrest (hpieces ▸ List.mem_cons_self) hc
      · exact hrest (hpieces ▸ List.mem_cons_of_mem first h) hc

theorem not_mem_of_mem_splitOn {piece : List Char} (h : piece ∈ s.splitOn c) : c ∉ piece := by
  intro hc
  rw [List.splitOn_eq_splitOnP] at h
  simpa using (of_mem_splitOnP h hc).2

theorem length_splitOn (c : Char) (s : List Char) : (s.splitOn c).length = s.count c + 1 := by
  induction s with
  | nil => rfl
  | cons d rest ih =>
    rw [List.splitOn_cons_eq_if_modifyHead, List.count_cons]
    split
    · simp [ih]
    · simp [ih]

section Pieces

variable (hc : isBlank c = false)
include hc

theorem map_trim_splitOn_blank_append (hxs : ∀ c ∈ xs, isBlank c = true) (s : List Char) :
    ((xs ++ s).splitOn c).map trim = (s.splitOn c).map trim := by
  have hnot : c ∉ xs := fun hmem => by simp [hxs c hmem] at hc
  by_cases hs : c ∈ s
  · obtain ⟨a, b, rfl, ha⟩ := List.eq_append_cons_of_mem hs
    have hfirst : c ∉ xs ++ a := fun hmem => (List.mem_append.1 hmem).elim hnot ha
    rw [← List.append_assoc, List.splitOn_append_cons_self_of_not_mem hfirst,
      List.splitOn_append_cons_self_of_not_mem ha, List.map_cons, List.map_cons,
      trim_blank_append hxs]
  · have hall : c ∉ xs ++ s := fun hmem => (List.mem_append.1 hmem).elim hnot hs
    rw [List.splitOn_eq_singleton hall, List.splitOn_eq_singleton hs, List.map_singleton,
      List.map_singleton, trim_blank_append hxs]

theorem map_trim_splitOn_append_blank (hys : ∀ c ∈ ys, isBlank c = true) (s : List Char) :
    ((s ++ ys).splitOn c).map trim = (s.splitOn c).map trim := by
  have hnot : c ∉ ys := fun hmem => by simp [hys c hmem] at hc
  have hsolid {t : List Char} (ht : c ∉ t) :
      ((t ++ ys).splitOn c).map trim = (t.splitOn c).map trim := by
    have hall : c ∉ t ++ ys := fun hmem => (List.mem_append.1 hmem).elim ht hnot
    rw [List.splitOn_eq_singleton hall, List.splitOn_eq_singleton ht, List.map_singleton,
      List.map_singleton, trim_append_blank hys]
  by_cases hs : c ∈ s
  · -- nothing is cut behind the last occurrence
    obtain ⟨b, a, hreverse, hb⟩ := List.eq_append_cons_of_mem (List.mem_reverse.2 hs)
    obtain rfl : s = a.reverse ++ c :: b.reverse := by
      rw [← List.reverse_reverse s, hreverse]
      simp
    rw [List.append_assoc, List.cons_append, List.splitOn_append_cons_self,
      List.splitOn_append_cons_self, List.map_append, List.map_append,
      hsolid (by rwa [List.mem_reverse])]
  · exact hsolid hs

/-- White space around a text is white space around its pieces. -/
theorem map_trim_splitOn_trim (s : List Char) :
    ((trim s).splitOn c).map trim = (s.splitOn c).map trim := by
  obtain ⟨xs, ys, hxs, hys, hs⟩ := exists_around_trim s
  conv_rhs => rw [hs]
  rw [map_trim_splitOn_blank_append hc hxs, map_trim_splitOn_append_blank hc hys]

end Pieces

theorem before_prefix (p : Char → Bool) (s : List Char) : before p s <+: s :=
  List.takeWhile_prefix _

theorem before_append_cons (hxs : ∀ c ∈ xs, p c = false) (hc : p c = true) :
    before p (xs ++ c :: ys) = xs := by
  rw [before, List.takeWhile_append_of_pos (by simpa using hxs), List.takeWhile_cons_of_neg
    (by simp [hc]), List.append_nil]

theorem before_eq_self (hxs : ∀ c ∈ xs, p c = false) : before p xs = xs :=
  List.takeWhile_eq_self_iff.2 (by simpa using hxs)

/-- A needle that begins nowhere in the first part is found behind it. -/
theorem splitOnce_append {needle : List Char}
    (h : ∀ c t, c :: t <:+ a → needle.isPrefixOf? (c :: t ++ b) = none) :
    splitOnce needle (a ++ b) = (splitOnce needle b).map fun x => (a ++ x.1, x.2) := by
  induction a with
  | nil => simp
  | cons c rest ih =>
    have hrest := ih fun d t ht => h d t (ht.trans (List.suffix_cons c rest))
    have hnone := h c rest List.suffix_rfl
    rw [List.cons_append] at hnone ⊢
    rw [splitOnce, hnone]
    simp only [hrest, Option.map_map]
    rfl

theorem occurs_nil (needle : List Char) : occurs needle [] = needle.isPrefixOf [] := by
  rw [occurs, splitOnce, ← List.isSome_isPrefixOf?_eq_isPrefixOf]
  cases needle.isPrefixOf? [] with
  | some rest => rfl
  | none => rfl

theorem occurs_cons (needle : List Char) (c : Char) (t : List Char) :
    occurs needle (c :: t) = (needle.isPrefixOf (c :: t) || occurs needle t) := by
  rw [occurs, splitOnce, ← List.isSome_isPrefixOf?_eq_isPrefixOf]
  cases needle.isPrefixOf? (c :: t) with
  | some rest => rfl
  | none => simp [occurs]

theorem occurs_iff {needle : List Char} : occurs needle s = true ↔ needle <:+: s := by
  induction s with
  | nil => rw [occurs_nil, List.isPrefixOf_iff_prefix, List.prefix_nil, List.infix_nil]
  | cons c t ih =>
    rw [occurs_cons, Bool.or_eq_true, List.isPrefixOf_iff_prefix, ih, List.infix_cons_iff]

theorem splitOnce_eq_none_iff {needle : List Char} :
    splitOnce needle s = none ↔ ¬ needle <:+: s := by
  rw [← occurs_iff, occurs, Bool.not_eq_true, Option.isSome_eq_false_iff, Option.isNone_iff_eq_none]

theorem splitOnce_singleton (ha : c ∉ a) : splitOnce [c] (a ++ c :: b) = some (a, b) := by
  have hfirst : splitOnce [c] (c :: b) = some ([], b) := by simp [splitOnce, List.isPrefixOf?]
  rw [splitOnce_append, hfirst]
  · simp
  · intro d t ht
    have hd : c ≠ d := fun h => ha (h ▸ ht.subset List.mem_cons_self)
    simp [List.isPrefixOf?, hd]

/-- What stands between two quotes, if no other one stands before. -/
theorem between_eq_some (ha : c ∉ a) (hb : c ∉ b) (rest : List Char) :
    between c (a ++ c :: (b ++ c :: rest)) = some b := by
  simp [between, splitOnce_singleton ha, splitOnce_singleton hb]

/-! ## The last occurrence -/

section Last

variable {needle rest : List Char}

/-- `rest` stands behind one of the occurrences of `needle` in `s`. -/
def Follows (needle rest s : List Char) : Prop := needle ++ rest <:+ s

/-- `rest` stands behind the last occurrence of `needle` in `s`: no other one is further right. -/
def FollowsLast (needle rest s : List Char) : Prop :=
  Follows needle rest s ∧ ∀ other, Follows needle other s → rest.length ≤ other.length

theorem follows_nil : Follows needle rest [] ↔ needle ++ rest = [] := List.suffix_nil

theorem follows_cons : Follows needle rest (c :: s) ↔
    needle ++ rest = c :: s ∨ Follows needle rest s :=
  List.suffix_cons_iff

/-- What stands behind the last occurrence is at the end of what stands behind any other. -/
theorem FollowsLast.suffix {other : List Char} (h : FollowsLast needle rest s)
    (hother : Follows needle other s) : rest <:+ other :=
  List.suffix_of_suffix_length_le ((List.suffix_append needle rest).trans h.1)
    ((List.suffix_append needle other).trans hother) (h.2 other hother)

theorem FollowsLast.eq {rest' : List Char} (h : FollowsLast needle rest s)
    (h' : FollowsLast needle rest' s) : rest = rest' :=
  (h.suffix h'.1).eq_of_length_le (h'.2 rest h.1)

theorem exists_afterLast (h : Follows needle rest s) :
    ∃ found, afterLast needle s = some found := by
  induction s with
  | nil => exact ⟨rest, List.isPrefixOf?_eq_some_iff_append_eq.2 (follows_nil.1 h)⟩
  | cons c t ih =>
    rw [afterLast]
    split
    · exact ⟨_, rfl⟩
    · rename_i hnone
      obtain hall | hlater := follows_cons.1 h
      · exact ⟨rest, List.isPrefixOf?_eq_some_iff_append_eq.2 hall⟩
      · obtain ⟨found, hfound⟩ := ih hlater
        rw [hfound] at hnone
        cases hnone

theorem followsLast_of_afterLast (h : afterLast needle s = some rest) :
    FollowsLast needle rest s := by
  induction s with
  | nil =>
    have hnil : needle ++ rest = [] := List.isPrefixOf?_eq_some_iff_append_eq.1 h
    refine ⟨follows_nil.2 hnil, fun other _ => ?_⟩
    rw [(List.append_eq_nil_iff.1 hnil).2]
    exact Nat.zero_le _
  | cons c t ih =>
    rw [afterLast] at h
    split at h
    · rename_i found hfound
      obtain rfl : found = rest := Option.some.inj h
      obtain ⟨hfollows, hlast⟩ := ih hfound
      refine ⟨follows_cons.2 (.inr hfollows), fun other hother => ?_⟩
      obtain hall | hlater := follows_cons.1 hother
      · -- an occurrence at the very front leaves more behind it
        have hlength := congrArg List.length hall
        have hle := hfollows.length_le
        simp only [List.length_append, List.length_cons] at hlength hle
        omega
      · exact hlast other hlater
    · rename_i hnone
      have hall : needle ++ rest = c :: t := List.isPrefixOf?_eq_some_iff_append_eq.1 h
      refine ⟨follows_cons.2 (.inl hall), fun other hother => ?_⟩
      obtain hother | hlater := follows_cons.1 hother
      · rw [List.append_cancel_left (hall.trans hother.symm)]
      · obtain ⟨found, hfound⟩ := exists_afterLast hlater
        rw [hfound] at hnone
        cases hnone

theorem afterLast_eq_some_iff : afterLast needle s = some rest ↔ FollowsLast needle rest s := by
  refine ⟨followsLast_of_afterLast, fun h => ?_⟩
  obtain ⟨found, hfound⟩ := exists_afterLast h.1
  rw [hfound, h.eq (followsLast_of_afterLast hfound)]

end Last

/-! ## Words -/

/-- No word reaches over white space. -/
theorem words_append_cons (hc : isBlank c = true) (a b : List Char) :
    words (a ++ c :: b) = words a ++ words b := by
  rw [words, List.splitOnP_append_cons a b hc, List.filter_append, words, words]

theorem words_cons (hc : isBlank c = true) (b : List Char) : words (c :: b) = words b :=
  words_append_cons hc [] b

theorem words_concat (hc : isBlank c = true) (a : List Char) : words (a ++ [c]) = words a := by
  rw [words_append_cons hc]
  exact List.append_nil _

/-- A text that ends in white space may stand in front of any words. -/
theorem words_append_of_getLast? (h : a.getLast?.all isBlank = true) (b : List Char) :
    words (a ++ b) = words a ++ words b := by
  cases hlast : a.getLast? with
  | none =>
    rw [List.getLast?_eq_none_iff.1 hlast]
    rfl
  | some c =>
    obtain ⟨front, rfl⟩ := List.getLast?_eq_some_iff.1 hlast
    have hc : isBlank c = true := by rwa [hlast] at h
    rw [List.append_assoc, List.singleton_append, words_append_cons hc, words_concat hc]

/-- A text that begins with white space may stand behind any words. -/
theorem words_append_of_head? (h : b.head?.all isBlank = true) (a : List Char) :
    words (a ++ b) = words a ++ words b := by
  cases b with
  | nil => simp [words]
  | cons c t =>
    have hc : isBlank c = true := h
    rw [words_append_cons hc, words_cons hc]

theorem words_eq_singleton (hw : ∀ c ∈ w, isBlank c = false) (hne : w ≠ []) : words w = [w] := by
  rw [words, List.splitOnP_eq_singleton hw]
  simpa using hne

theorem mem_of_mem_words (h : w ∈ words s) (hc : c ∈ w) : c ∈ s :=
  (of_mem_splitOnP (List.mem_filter.1 h).1 hc).1

/-- A carriage return belongs to no word. -/
@[simp] theorem words_dropReturn (s : List Char) : words (dropReturn s) = words s := by
  unfold dropReturn
  split
  · rename_i hlast
    obtain ⟨front, rfl⟩ := List.getLast?_eq_some_iff.1 hlast
    rw [List.dropLast_concat, words_concat rfl]
  · rfl

/-! ## Lines -/

/-- Everything before a line feed is made of whole lines. -/
theorem lines_append_newline (a b : List Char) :
    lines (a ++ '\n' :: b) = (a.splitOn '\n').map dropReturn ++ lines b := by
  have hb : b.splitOn '\n' ≠ [] := List.splitOn_ne_nil '\n' b
  rw [lines, List.splitOn_append_cons_self, List.dropLast_append_of_ne_nil hb, List.map_append,
    List.append_assoc, lines, List.getLastD_eq_getLast?, List.getLast?_append_of_ne_nil _ hb,
    List.getLastD_eq_getLast?]

@[simp] theorem lines_nil : lines [] = [] := rfl

/-- After a line feed, a new line begins. -/
theorem lines_append (h : a = [] ∨ ∃ front, a = front ++ ['\n']) :
    lines (a ++ b) = lines a ++ lines b := by
  obtain rfl | ⟨front, rfl⟩ := h
  · rfl
  · rw [List.append_assoc, List.singleton_append, lines_append_newline, lines_append_newline,
      lines_nil, List.append_nil]

/-- A text without line feed before a line feed is one line. -/
theorem lines_cons (ha : '\n' ∉ a) : lines (a ++ '\n' :: b) = dropReturn a :: lines b := by
  rw [lines_append_newline, List.splitOn_eq_singleton ha]
  rfl

/-- A text without line feed is one line, unless it is empty. -/
theorem lines_of_not_mem (h : '\n' ∉ s) : lines s = if s = [] then [] else [s] := by
  rw [lines, List.splitOn_eq_singleton h]
  simp

/-- A carriage return is white space. -/
@[simp] theorem trim_dropReturn (s : List Char) : trim (dropReturn s) = trim s := by
  unfold dropReturn
  split
  · rename_i hlast
    obtain ⟨front, rfl⟩ := List.getLast?_eq_some_iff.1 hlast
    rw [List.dropLast_concat]
    exact (trim_append_blank (List.all_eq_true.1 rfl)).symm
  · rfl

/-! ## Replacement -/

theorem not_mem_replace {old new : Char} (hne : new ≠ old) (s : List Char) :
    old ∉ replace old new s := by
  simp only [replace, List.mem_map, not_exists, not_and]
  intro c _
  split
  · exact hne
  · assumption

theorem replace_eq_self {old : Char} (h : old ∉ s) (new : Char) : replace old new s = s := by
  have hkeep : ∀ c ∈ s, (if c = old then new else c) = id c :=
    fun c hc => if_neg fun hsame : c = old => h (hsame ▸ hc)
  rw [replace, List.map_congr_left hkeep, List.map_id]

theorem not_mem_slashes (s : List Char) : '\\' ∉ slashes s := not_mem_replace (by decide) s

theorem slashes_eq_self (h : '\\' ∉ s) : slashes s = s := replace_eq_self h '/'

/-- Neither a backslash nor a slash is white space. -/
theorem Stripped.slashes (h : Stripped isBlank s) : Stripped isBlank (slashes s) := by
  refine Stripped.map (fun c => ?_) h
  split
  · rename_i hc
    rw [hc]
    rfl
  · rfl

/-! ## Case -/

/-- Capital ASCII letters are moved, every other character stays. -/
theorem toLower_cases (c : Char) :
    c.toLower = c ∨ 65 ≤ c.toNat ∧ c.toNat ≤ 90 ∧ c.toLower.toNat = c.toNat + 32 := by
  by_cases h : 'A'.val ≤ c.val ∧ c.val ≤ 'Z'.val
  · have hval : c.toLower.val = c.val + ('a'.val - 'A'.val) := congrArg Char.val (dif_pos h)
    have hshift : ('a'.val - 'A'.val).toNat = 32 := by decide
    have hfirst : 65 ≤ c.toNat := UInt32.le_iff_toNat_le.1 h.1
    have hlast : c.toNat ≤ 90 := UInt32.le_iff_toNat_le.1 h.2
    refine .inr ⟨hfirst, hlast, ?_⟩
    rw [Char.toNat, hval, UInt32.toNat_add, hshift]
    exact Nat.mod_eq_of_lt (by change c.toNat + 32 < _; omega)
  · exact .inl (dif_neg h)

theorem toLower_toLower (c : Char) : c.toLower.toLower = c.toLower := by
  obtain hsame | ⟨hfirst, -, hmoved⟩ := toLower_cases c
  · rw [hsame, hsame]
  · -- small letters stand behind the capital ones
    exact (toLower_cases c.toLower).resolve_right (by omega)

@[simp] theorem lower_lower (s : List Char) : lower (lower s) = lower s := by
  rw [lower, lower, List.map_map]
  exact List.map_congr_left fun c _ => toLower_toLower c

/-- Nothing in front of the capital letters is moved, and nothing is moved there. -/
theorem mem_lower_iff (h : c.toNat < 65) : c ∈ lower s ↔ c ∈ s := by
  rw [lower, List.mem_map]
  constructor
  · rintro ⟨d, hd, rfl⟩
    obtain hsame | ⟨hfirst, -, hmoved⟩ := toLower_cases d
    · rwa [hsame]
    · omega
  · exact fun hc => ⟨c, hc, (toLower_cases c).resolve_right (by omega)⟩

/-- Printable ASCII characters are not white space. -/
theorem isBlank_eq_false (h : 0x20 < c.toNat) (h' : c.toNat < 0x7F) : isBlank c = false := by
  simp only [Bool.eq_false_iff, isBlank, ne_eq, Bool.or_eq_true, Bool.and_eq_true,
    decide_eq_true_eq, beq_iff_eq]
  omega

@[simp] theorem isBlank_toLower (c : Char) : isBlank c.toLower = isBlank c := by
  obtain hsame | ⟨hfirst, hlast, hmoved⟩ := toLower_cases c
  · rw [hsame]
  · rw [isBlank_eq_false (by omega) (by omega), isBlank_eq_false (by omega) (by omega)]

theorem trim_lower (s : List Char) : trim (lower s) = lower (trim s) := by
  have hblank : isBlank ∘ Char.toLower = isBlank := funext isBlank_toLower
  simp only [trim, dropBothWhile, dropEndWhile, lower, List.dropWhile_map, hblank,
    ← List.map_reverse]

end TierIsolation.Text
