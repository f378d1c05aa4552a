import CurlHttpfs.Lib.Text

/-!
# Reading lines through a buffer

`fgets` fills a buffer of fixed size and stops behind a line feed. A line that
fits is one read; a longer one is cut into pieces, and the reads together are
the text.
-/

namespace CurlHttpfs.Text

/-- The characters for which there is room, up to and including a line feed, and the rest. -/
def takeLine : Nat → List Char → List Char × List Char
  | 0, text => ([], text)
  | _ + 1, [] => ([], [])
  | room + 1, c :: text =>
    if c = '\n' then ([c], text) else (c :: (takeLine room text).1, (takeLine room text).2)

/-- `fgets`: what is read into a buffer of the size, with room for its
terminator, and the rest; nothing at the end of the file. -/
def fgets (size : Nat) (text : List Char) : Option (List Char × List Char) :=
  if text = [] then none else some (takeLine (size - 1) text)

/-- At most so many reads, until one fails. -/
def readsWithin (size : Nat) : Nat → List Char → List (List Char)
  | 0, _ => []
  | fuel + 1, text =>
    match fgets size text with
    | none => []
    | some (line, rest) => line :: readsWithin size fuel rest

/-- All reads until one fails. There are no more of them than characters. -/
def reads (size : Nat) (text : List Char) : List (List Char) := readsWithin size text.length text

/-- With room for a character a read makes the text shorter. -/
theorem takeLine_rest {room : Nat} (hroom : 0 < room) (c : Char) (text : List Char) :
    (takeLine room (c :: text)).2.length ≤ text.length := by
  induction room generalizing c text with
  | zero => omega
  | succ room ih =>
    rw [takeLine]
    split
    · exact Nat.le_refl _
    · cases room with
      | zero => exact Nat.le_refl _
      | succ room =>
        cases text with
        | nil => exact Nat.le_refl _
        | cons d text =>
          have hrest := ih (Nat.succ_pos _) d text
          rw [List.length_cons]
          exact Nat.le_succ_of_le hrest

/-- A line that fits is read with its line feed. -/
theorem takeLine_line {line : List Char} {room : Nat} (h : '\n' ∉ line) (hroom : line.length < room)
    (rest : List Char) : takeLine room (line ++ '\n' :: rest) = (line ++ ['\n'], rest) := by
  induction line generalizing room with
  | nil =>
    cases room with
    | zero => omega
    | succ room => exact if_pos rfl
  | cons c line ih =>
    obtain ⟨hc, hline⟩ := not_or.mp fun hm => h (List.mem_cons.mpr hm)
    cases room with
    | zero => omega
    | succ room =>
      have hrest := ih hline (Nat.lt_of_succ_lt_succ hroom)
      rw [List.cons_append, takeLine, if_neg (Ne.symm hc), hrest]
      rfl

/-- A limit that is not below the length does not matter. -/
theorem readsWithin_eq {size : Nat} (hsize : 1 < size) {fuel fuel' : Nat} {text : List Char}
    (hfuel : text.length ≤ fuel) (hfuel' : text.length ≤ fuel') :
    readsWithin size fuel text = readsWithin size fuel' text := by
  induction fuel generalizing fuel' text with
  | zero =>
    obtain rfl := List.length_eq_zero_iff.mp (Nat.le_zero.mp hfuel)
    cases fuel' <;> rfl
  | succ fuel ih =>
    cases text with
    | nil => cases fuel' <;> rfl
    | cons c text =>
      have hrest := takeLine_rest (Nat.sub_pos_of_lt hsize) c text
      have hshort : text.length ≤ fuel := Nat.le_of_succ_le_succ hfuel
      cases fuel' with
      | zero => exact absurd hfuel' (Nat.not_succ_le_zero _)
      | succ fuel' =>
        have hshort' : text.length ≤ fuel' := Nat.le_of_succ_le_succ hfuel'
        simp only [readsWithin, fgets, if_neg (List.cons_ne_nil c text)]
        rw [ih (Nat.le_trans hrest hshort) (Nat.le_trans hrest hshort')]

/-- The first read, and the reads of the rest. -/
theorem reads_cons {size : Nat} (hsize : 1 < size) (c : Char) (text : List Char) :
    reads size (c :: text) =
      (takeLine (size - 1) (c :: text)).1 :: reads size (takeLine (size - 1) (c :: text)).2 := by
  have hrest := takeLine_rest (Nat.sub_pos_of_lt hsize) c text
  rw [reads, List.length_cons, readsWithin, fgets, if_neg (List.cons_ne_nil c text)]
  dsimp only
  rw [readsWithin_eq hsize hrest (Nat.le_refl _), reads]

/-- A line that fits is one read. -/
theorem reads_line {size : Nat} {line : List Char} (h : '\n' ∉ line) (hfits : line.length + 1 < size)
    (rest : List Char) : reads size (line ++ '\n' :: rest) = (line ++ ['\n']) :: reads size rest := by
  have hread := takeLine_line h (Nat.lt_sub_of_add_lt hfits) rest
  cases line with
  | nil =>
    rw [List.nil_append] at hread ⊢
    rw [reads_cons (Nat.lt_of_le_of_lt (Nat.le_add_left _ _) hfits), hread]
  | cons c line =>
    rw [List.cons_append] at hread ⊢
    rw [reads_cons (Nat.lt_of_le_of_lt (Nat.le_add_left _ _) hfits), hread]

/-- Lines that fit are read one by one. -/
theorem reads_flatMap {size : Nat} {lines : List (List Char)} (h : ∀ line ∈ lines, '\n' ∉ line)
    (hfits : ∀ line ∈ lines, line.length + 1 < size) (rest : List Char) :
    reads size ((lines.flatMap fun line => line ++ ['\n']) ++ rest) =
      (lines.map fun line => line ++ ['\n']) ++ reads size rest := by
  induction lines with
  | nil => rfl
  | cons line lines ih =>
    have hlines := ih (fun line hm => h line (List.mem_cons_of_mem _ hm))
      fun line hm => hfits line (List.mem_cons_of_mem _ hm)
    rw [List.flatMap_cons, List.append_assoc, List.append_assoc, List.singleton_append,
      reads_line (h line List.mem_cons_self) (hfits line List.mem_cons_self), hlines]
    rfl

end CurlHttpfs.Text
