import Mathlib.Data.List.TakeWhile

/-!
# Reading text

Lines, columns and numbers the way the standard library reads them: `std::getline`
until it fails, `operator>>` into a string, and `std::stoul` in base sixteen.
Text is a list of characters.
-/

namespace CurlHttpfs.Text

/-! ## Lines -/

/-- The lines that `std::getline` yields until it fails. A last line need not
be terminated, but behind a terminator there is only a line if text follows. -/
def linesOf : List Char → List (List Char)
  | [] => []
  | c :: rest =>
    if c = '\n' then [] :: linesOf rest
    else
      match linesOf rest with
      | [] => [[c]]
      | line :: lines => (c :: line) :: lines

/-- A terminated line is read as it is. -/
theorem linesOf_line {line : List Char} (h : '\n' ∉ line) (rest : List Char) :
    linesOf (line ++ '\n' :: rest) = line :: linesOf rest := by
  induction line with
  | nil => exact if_pos rfl
  | cons c line ih =>
    obtain ⟨hc, hline⟩ := not_or.mp fun hm => h (List.mem_cons.mpr hm)
    rw [List.cons_append, linesOf, if_neg (Ne.symm hc), ih hline]

/-- Terminated lines are read one by one. -/
theorem linesOf_flatMap {lines : List (List Char)} (h : ∀ line ∈ lines, '\n' ∉ line) :
    linesOf (lines.flatMap fun line => line ++ ['\n']) = lines := by
  induction lines with
  | nil => rfl
  | cons line lines ih =>
    have hfirst := h line List.mem_cons_self
    rw [List.flatMap_cons, List.append_assoc, List.singleton_append, linesOf_line hfirst,
      ih fun line hm => h line (List.mem_cons_of_mem _ hm)]

/-! ## Columns -/

/-- `isspace` of the default locale. -/
def isSpace (c : Char) : Bool := c = ' ' || (9 ≤ c.toNat && c.toNat ≤ 13)

/-- `operator>>` into an empty string: the word behind leading white space, and
what follows it. At the end of the text the string stays empty. -/
def extract (text : List Char) : List Char × List Char :=
  let text := text.dropWhile isSpace
  (text.takeWhile fun c => !isSpace c, text.dropWhile fun c => !isSpace c)

/-- White space and nothing else. -/
def IsGap (text : List Char) : Prop := ∀ c ∈ text, isSpace c = true

/-- A non-empty text without white space. -/
structure IsWord (text : List Char) : Prop where
  /-- There is something to read. -/
  nonempty : text ≠ []
  /-- Nothing ends it. -/
  solid : ∀ c ∈ text, isSpace c = false

theorem isWord_of_all {text : List Char} (hne : text ≠ []) (h : (text.all fun c => !isSpace c) = true) :
    IsWord text :=
  ⟨hne, fun c hc => Bool.not_eq_true' _ ▸ List.all_eq_true.mp h c hc⟩

/-- A text at which a word ends. -/
def EndsWord (text : List Char) : Prop := ∀ c ∈ text.head?, isSpace c = true

/-- A word between white space is read as it is. -/
theorem extract_word {gap word rest : List Char} (hgap : IsGap gap) (hword : IsWord word)
    (hrest : EndsWord rest) : extract (gap ++ (word ++ rest)) = (word, rest) := by
  have hdrop : (gap ++ (word ++ rest)).dropWhile isSpace = word ++ rest := by
    rw [List.dropWhile_append_of_pos hgap]
    cases word with
    | nil => exact absurd rfl hword.nonempty
    | cons c word => rw [List.cons_append, List.dropWhile_cons_of_neg (by simp [hword.solid c])]
  have hsolid : ∀ c ∈ word, (!isSpace c) = true := by
    intro c hc
    rw [hword.solid c hc]
    rfl
  have hstop : rest.takeWhile (fun c => !isSpace c) = [] ∧ rest.dropWhile (fun c => !isSpace c) = rest := by
    cases rest with
    | nil => exact ⟨rfl, rfl⟩
    | cons c rest =>
      have hc : isSpace c = true := hrest c rfl
      simp only [List.takeWhile_cons, List.dropWhile_cons, hc, Bool.not_true, Bool.false_eq_true, if_false,
        and_self]
  rw [extract, hdrop, List.takeWhile_append_of_pos hsolid, List.dropWhile_append_of_pos hsolid, hstop.1,
    hstop.2, List.append_nil]

/-- At a word, the word is read to its end. -/
theorem extract_solid {c : Char} (hc : ¬isSpace c = true) (text : List Char) :
    IsWord (extract (c :: text)).1 ∧ EndsWord (extract (c :: text)).2 ∧
      (extract (c :: text)).1 ++ (extract (c :: text)).2 = c :: text := by
  have hread : extract (c :: text) =
      ((c :: text).takeWhile fun c => !isSpace c, (c :: text).dropWhile fun c => !isSpace c) := by
    rw [extract, List.dropWhile_cons_of_neg hc]
  rw [hread]
  refine ⟨⟨?_, fun d hd => ?_⟩, fun d hd => ?_, List.takeWhile_append_dropWhile⟩
  · rw [List.takeWhile_cons_of_pos (by simpa using hc)]
    exact List.cons_ne_nil _ _
  · simpa using List.mem_takeWhile_imp hd
  · have hstop := List.head?_dropWhile_not (fun c => !isSpace c) (c :: text)
    rw [Option.mem_def.mp hd] at hstop
    simpa using hstop

/-- The columns of a text: what stands between white space. -/
def columnsOf (text : List Char) : List (List Char) := (text.splitOnP isSpace).filter (· ≠ [])

/-- No column is empty. -/
theorem ne_nil_of_mem_columnsOf {text column : List Char} (h : column ∈ columnsOf text) : column ≠ [] :=
  of_decide_eq_true (List.mem_filter.mp h).2

theorem columnsOf_space {c : Char} (h : isSpace c = true) (text : List Char) :
    columnsOf (c :: text) = columnsOf text := by
  rw [columnsOf, List.splitOnP_cons_eq_if_modifyHead, if_pos h]
  rfl

/-- A word is the first column of the text that it starts. -/
theorem columnsOf_word {word rest : List Char} (hword : IsWord word) (hrest : EndsWord rest) :
    columnsOf (word ++ rest) = word :: columnsOf rest := by
  cases rest with
  | nil =>
    rw [List.append_nil, columnsOf, List.splitOnP_eq_singleton hword.solid]
    exact List.filter_cons_of_pos (decide_eq_true hword.nonempty)
  | cons c rest =>
    have hc : isSpace c = true := hrest c rfl
    rw [columnsOf_space hc, columnsOf, List.splitOnP_append_cons_of_forall_mem hword.solid c hc]
    exact List.filter_cons_of_pos (decide_eq_true hword.nonempty)

/-- What is read from a text is its first column, and the other columns are left. -/
theorem extract_columns (text : List Char) :
    (extract text).1 = (columnsOf text).headD [] ∧ columnsOf (extract text).2 = (columnsOf text).tail := by
  induction text with
  | nil => exact ⟨rfl, rfl⟩
  | cons c text ih =>
    by_cases hc : isSpace c = true
    · have hskip : extract (c :: text) = extract text := by
        rw [extract, extract, List.dropWhile_cons_of_pos hc]
      rw [hskip, columnsOf_space hc]
      exact ih
    · obtain ⟨hword, hends, hparts⟩ := extract_solid hc text
      have hcolumns := columnsOf_word hword hends
      rw [hparts] at hcolumns
      rw [hcolumns]
      exact ⟨rfl, rfl⟩

/-- The first occurrence of a character behind a text without it. -/
theorem idxOf?_append {c : Char} {text : List Char} (h : c ∉ text) (rest : List Char) :
    (text ++ c :: rest).idxOf? c = some text.length := by
  induction text with
  | nil => simp only [List.nil_append, List.idxOf?_cons, beq_self_eq_true, if_true, List.length_nil]
  | cons d text ih =>
    obtain ⟨hd, htext⟩ := not_or.mp fun hm => h (List.mem_cons.mpr hm)
    rw [List.cons_append, List.idxOf?_cons, ih htext, if_neg (by simpa using Ne.symm hd)]
    rfl

/-- Texts with a separator have only one part in front of its first occurrence. -/
theorem append_cons_inj {c : Char} {first first' rest rest' : List Char} (h : c ∉ first) (h' : c ∉ first')
    (he : first ++ c :: rest = first' ++ c :: rest') : first = first' ∧ rest = rest' := by
  have hidx := congrArg (fun text => text.idxOf? c) he
  simp only [idxOf?_append h, idxOf?_append h', Option.some.injEq] at hidx
  obtain ⟨hfirst, hrest⟩ := List.append_inj he hidx
  exact ⟨hfirst, (List.cons.inj hrest).2⟩

/-! ## Numbers -/

/-- The exceptions of `std::stoul`. -/
inductive NumberError where
  /-- `std::invalid_argument`: no digit. -/
  | invalidArgument
  /-- `std::out_of_range`: more than `ULONG_MAX`. -/
  | outOfRange
  deriving DecidableEq

/-- The value of a hexadecimal digit, in either case. -/
def hexValue? (c : Char) : Option Nat :=
  ("0123456789abcdef".toList.idxOf? c).or ("0123456789ABCDEF".toList.idxOf? c)

/-- The sign in front of a number. -/
def signOf : List Char → Bool × List Char
  | '-' :: rest => (true, rest)
  | '+' :: rest => (false, rest)
  | text => (false, text)

/-- The prefix `0x` is skipped when a digit follows it. -/
def skipHexPrefix : List Char → List Char
  | '0' :: x :: d :: rest =>
    if (x = 'x' ∨ x = 'X') ∧ (hexValue? d).isSome = true then d :: rest else '0' :: x :: d :: rest
  | text => text

/-- The number that some digits denote. -/
def hexNumber (digits : List Char) : Nat :=
  digits.foldl (fun n c => 16 * n + (hexValue? c).getD 0) 0

/-- `ULONG_MAX` of a 64-bit host. -/
def ulongMax : Nat := 18446744073709551615

/-- `std::stoul(text, nullptr, 16)`, where a negative number wraps. -/
def stoul16 (text : List Char) : Except NumberError Nat :=
  let (negative, text) := signOf (text.dropWhile isSpace)
  let digits := (skipHexPrefix text).takeWhile fun c => (hexValue? c).isSome
  if digits = [] then .error .invalidArgument
  else if ulongMax < hexNumber digits then .error .outOfRange
  else .ok (if negative = true then (ulongMax + 1 - hexNumber digits) % (ulongMax + 1) else hexNumber digits)

/-- The sign is the first character or there is none. -/
theorem signOf_cons (c : Char) (rest : List Char) :
    signOf (c :: rest) =
      if c = '-' then (true, rest) else if c = '+' then (false, rest) else (false, c :: rest) := by
  by_cases hminus : c = '-'
  · rw [if_pos hminus, hminus]
    rfl
  · by_cases hplus : c = '+'
    · rw [if_neg hminus, if_pos hplus, hplus]
      rfl
    · rw [if_neg hminus, if_neg hplus]
      unfold signOf
      split
      · rename_i he
        exact absurd (List.cons.inj he).1 hminus
      · rename_i he
        exact absurd (List.cons.inj he).1 hplus
      · rfl

theorem skipHexPrefix_short {text : List Char} (h : text.length < 3) : skipHexPrefix text = text := by
  unfold skipHexPrefix
  split
  · simp only [List.length_cons] at h
    omega
  · rfl

/-- The prefix is skipped in front of a digit. -/
theorem skipHexPrefix_cons (zero x d : Char) (rest : List Char) :
    skipHexPrefix (zero :: x :: d :: rest) =
      if zero = '0' ∧ (x = 'x' ∨ x = 'X') ∧ (hexValue? d).isSome = true then d :: rest
      else zero :: x :: d :: rest := by
  by_cases hzero : zero = '0'
  · simp only [hzero, true_and]
    rfl
  · rw [if_neg fun h => hzero h.1]
    unfold skipHexPrefix
    split
    · rename_i he
      exact absurd (List.cons.inj he).1 hzero
    · rfl

/-- A digit in either case. -/
theorem hexValue?_mem {c : Char} {n : Nat} (h : hexValue? c = some n) :
    c ∈ "0123456789abcdefABCDEF".toList := by
  by_contra hc
  have hlower : c ∉ "0123456789abcdef".toList := fun hm => hc (List.mem_append_left "ABCDEF".toList hm)
  have hupper : c ∉ "0123456789ABCDEF".toList := by
    intro hm
    rcases List.mem_append.mp (show c ∈ "0123456789".toList ++ "ABCDEF".toList from hm) with hdigit | hletter
    · exact hlower (List.mem_append_left "abcdef".toList hdigit)
    · exact hc (List.mem_append_right "0123456789abcdef".toList hletter)
  rw [hexValue?, List.idxOf?_eq_none_iff.mpr hlower, List.idxOf?_eq_none_iff.mpr hupper] at h
  cases h

/-- Digits are neither white space nor signs, and their values are below sixteen. -/
theorem hexValue?_digit {c : Char} {n : Nat} (h : hexValue? c = some n) :
    isSpace c = false ∧ c ≠ '-' ∧ c ≠ '+' ∧ n < 16 := by
  have hall : ("0123456789abcdefABCDEF".toList.all fun c =>
      !isSpace c && c != '-' && c != '+' && (hexValue? c).getD 0 < 16) = true := by decide
  have hc := List.all_eq_true.mp hall c (hexValue?_mem h)
  simp only [h, Option.getD_some, Bool.and_eq_true, Bool.not_eq_true', bne_iff_ne, decide_eq_true_eq,
    and_assoc] at hc
  exact hc

/-- A digit in front means that there is no sign. -/
theorem signOf_digit {c : Char} {n : Nat} (h : hexValue? c = some n) (rest : List Char) :
    signOf (c :: rest) = (false, c :: rest) := by
  obtain ⟨-, hminus, hplus, -⟩ := hexValue?_digit h
  rw [signOf_cons, if_neg hminus, if_neg hplus]

/-- Two digits are read as the byte that they denote. -/
theorem stoul16_pair {c d : Char} {m n : Nat} (hc : hexValue? c = some m) (hd : hexValue? d = some n) :
    stoul16 [c, d] = .ok (16 * m + n) := by
  have hm := (hexValue?_digit hc).2.2.2
  have hn := (hexValue?_digit hd).2.2.2
  have hspace : [c, d].dropWhile isSpace = [c, d] := by
    rw [List.dropWhile_cons_of_neg (by simp [(hexValue?_digit hc).1])]
  have hprefix : skipHexPrefix [c, d] = [c, d] := skipHexPrefix_short (by decide : 2 < 3)
  have hdigits : [c, d].takeWhile (fun c => (hexValue? c).isSome) = [c, d] := by
    rw [List.takeWhile_eq_self_iff]
    simp [hc, hd]
  have hnumber : hexNumber [c, d] = 16 * m + n := by
    simp [hexNumber, hc, hd]
  have hsmall : ¬ulongMax < 16 * m + n := by
    rw [ulongMax]
    omega
  simp only [stoul16, hspace, signOf_digit hc, hprefix, hdigits, hnumber, hsmall, Bool.false_eq_true,
    if_false, reduceCtorEq]

/-- Decimal digits of a positive number do not start with a zero. -/
theorem toDigits_head {n : Nat} (h : 0 < n) : (Nat.toDigits 10 n).head? ≠ some '0' := by
  induction n using Nat.strongRecOn with
  | ind n ih =>
    rw [Nat.toDigits_eq_if (by decide)]
    split
    · intro hzero
      have hdigit := Nat.digitChar_eq_zero.mp (Option.some.inj hzero)
      omega
    · obtain ⟨c, digits, hdigits⟩ := List.exists_cons_of_ne_nil (Nat.toDigits_ne_nil (n := n / 10) (b := 10))
      have hfirst := ih (n / 10) (by omega) (by omega)
      rw [hdigits] at hfirst ⊢
      exact hfirst

/-! ## Letter case -/

/-- What holds of the small letters and of those without case holds of all characters. -/
theorem apply_toUpper {β : Type*} (f : Char → β)
    (h : ∀ n < 26, f (Char.ofNat (97 + n)).toUpper = f (Char.ofNat (97 + n))) (c : Char) :
    f c.toUpper = f c := by
  by_cases hc : 97 ≤ c.toNat ∧ c.toNat ≤ 122
  · have hletter := h (c.toNat - 97) (by omega)
    rw [Nat.add_sub_cancel' hc.1, Char.ofNat_toNat] at hletter
    exact hletter
  · have hsame : c.toUpper = c := dif_neg hc
    rw [hsame]

theorem isSpace_toUpper (c : Char) : isSpace c.toUpper = isSpace c := apply_toUpper isSpace (by decide) c

theorem hexValue?_toUpper (c : Char) : hexValue? c.toUpper = hexValue? c :=
  apply_toUpper hexValue? (by decide) c

/-- A sign is not a letter. -/
theorem signOf_toUpper (text : List Char) :
    signOf (text.map Char.toUpper) = ((signOf text).1, (signOf text).2.map Char.toUpper) := by
  cases text with
  | nil => rfl
  | cons c rest =>
    have hminus : (c.toUpper = '-') = (c = '-') := apply_toUpper (· = '-') (by decide) c
    have hplus : (c.toUpper = '+') = (c = '+') := apply_toUpper (· = '+') (by decide) c
    simp only [List.map_cons, signOf_cons, hminus, hplus]
    split
    · rfl
    · split
      · rfl
      · rfl

/-- The prefix is skipped in either case. -/
theorem skipHexPrefix_toUpper (text : List Char) :
    skipHexPrefix (text.map Char.toUpper) = (skipHexPrefix text).map Char.toUpper := by
  by_cases hshort : text.length < 3
  · rw [skipHexPrefix_short hshort, skipHexPrefix_short (by rwa [List.length_map])]
  · cases text with
    | nil => exact absurd (Nat.zero_lt_succ 2) hshort
    | cons zero text =>
      cases text with
      | nil => exact absurd (by decide : 1 < 3) hshort
      | cons x text =>
        cases text with
        | nil => exact absurd (by decide : 2 < 3) hshort
        | cons d rest =>
          have hzero : (zero.toUpper = '0') = (zero = '0') := apply_toUpper (· = '0') (by decide) zero
          have hx : (x.toUpper = 'x' ∨ x.toUpper = 'X') = (x = 'x' ∨ x = 'X') :=
            apply_toUpper (fun x => x = 'x' ∨ x = 'X') (by decide) x
          simp only [List.map_cons, skipHexPrefix_cons, hzero, hx, hexValue?_toUpper]
          split
          · rfl
          · rfl

/-- Letter case does not matter to a number. -/
theorem stoul16_toUpper (text : List Char) : stoul16 (text.map Char.toUpper) = stoul16 text := by
  have hspace : isSpace ∘ Char.toUpper = isSpace := funext isSpace_toUpper
  have hdigit : (fun c => (hexValue? c).isSome) ∘ Char.toUpper = fun c => (hexValue? c).isSome := by
    funext c
    exact congrArg Option.isSome (hexValue?_toUpper c)
  have hnumber (digits : List Char) : hexNumber (digits.map Char.toUpper) = hexNumber digits := by
    rw [hexNumber, List.foldl_map]
    simp only [hexValue?_toUpper]
    rfl
  simp only [stoul16, List.dropWhile_map, hspace, signOf_toUpper, skipHexPrefix_toUpper, List.takeWhile_map,
    hdigit, hnumber, List.map_eq_nil_iff]

end CurlHttpfs.Text
