import CurlHttpfs.Tcp.ProcTable

/-!
# Decoding addresses

The kernel prints the word of an IPv4 address with its last byte in front.
`HexToIP` puts the bytes back in order and turns them into dotted decimal text.
Eight digits always denote an address, and they are determined by its text up to
letter case.
-/

namespace CurlHttpfs.Tcp

open Http Text

/-! ## Dotted decimal text -/

/-- The decimal digits of a number, without leading zeros. -/
structure IsDecimal (text : Str) (n : Nat) : Prop where
  /-- There are digits. -/
  nonempty : text ≠ []
  /-- There is nothing else. -/
  digits : ∀ c ∈ text, c.isDigit = true
  /-- They denote the number. -/
  value : Nat.ofDigitChars 10 text 0 = n
  /-- Only zero starts with a zero. -/
  leading : text.head? = some '0' → text = ['0']

/-- The bytes of an address in order, in decimal and separated by dots. -/
def IsDotted (text : Str) (q : Quad) : Prop :=
  ∃ a b c d, IsDecimal a q.a.toNat ∧ IsDecimal b q.b.toNat ∧ IsDecimal c q.c.toNat ∧
    IsDecimal d q.d.toNat ∧ text = a ++ '.' :: (b ++ '.' :: (c ++ '.' :: d))

/-- `%d` of a byte has no leading zeros. -/
theorem isDecimal_decimal (byte : UInt8) : IsDecimal (decimal byte) byte.toNat := by
  refine ⟨Nat.toDigits_ne_nil, fun c hc => decimal_digit byte hc, Nat.ofDigitChars_ten_toDigits, ?_⟩
  intro hleading
  have hzero : byte.toNat = 0 := Nat.eq_zero_of_not_pos fun hpos => toDigits_head hpos hleading
  rw [decimal, hzero, Nat.toDigits_zero]

/-- The text of an address is its dotted decimal text. -/
theorem isDotted_inetNtop (q : Quad) : IsDotted (inetNtop q) q :=
  ⟨_, _, _, _, isDecimal_decimal q.a, isDecimal_decimal q.b, isDecimal_decimal q.c,
    isDecimal_decimal q.d, rfl⟩

/-! ## Letter case -/

/-- Letter case does not matter to a byte. -/
theorem byteAt_toUpper (hex : Str) (idx : Nat) : byteAt (hex.map Char.toUpper) idx = byteAt hex idx := by
  rw [byteAt, byteAt, ← List.map_drop, ← List.map_take, stoul16_toUpper]

/-- Letter case does not matter to an address. -/
theorem hexToIP_toUpper (hex : Str) : hexToIP (hex.map Char.toUpper) = hexToIP hex := by
  simp only [hexToIP, List.length_map, byteAt_toUpper]

/-- A digit is one that the kernel prints, up to letter case. -/
theorem toUpper_digit {c : Char} (h : c ∈ "0123456789abcdefABCDEF".toList) :
    ∃ n < 16, c.toUpper = hexDigit n := by
  have hall : ("0123456789abcdefABCDEF".toList.all fun c =>
      (hexValue? c).getD 0 < 16 && c.toUpper = hexDigit ((hexValue? c).getD 0)) = true := by decide
  have hc := List.all_eq_true.mp hall c h
  simp only [Bool.and_eq_true, decide_eq_true_eq] at hc
  exact ⟨_, hc.1, hc.2⟩

/-- Two digits are those of a byte. -/
theorem hexByte_digits {m n : Nat} (hm : m < 16) (hn : n < 16) :
    hexByte (UInt8.ofNat (16 * m + n)) = [hexDigit m, hexDigit n] := by
  have hbyte : (UInt8.ofNat (16 * m + n)).toNat = 16 * m + n := by
    have hsize : UInt8.size = 256 := rfl
    exact UInt8.toNat_ofNat_of_lt (by omega)
  have hhigh : (16 * m + n) / 16 = m := by omega
  have hlow : (16 * m + n) % 16 = n := by omega
  rw [hexByte, hbyte, hhigh, hlow]

/-- Two digits are those of a byte, up to letter case. -/
theorem exists_hexByte {pair : Str} (hlength : pair.length = 2)
    (hdigits : ∀ c ∈ pair, c ∈ "0123456789abcdefABCDEF".toList) :
    ∃ byte, pair.map Char.toUpper = hexByte byte := by
  obtain ⟨c, d, rfl⟩ := List.length_eq_two.mp hlength
  obtain ⟨m, hm, hc⟩ := toUpper_digit (hdigits c List.mem_cons_self)
  obtain ⟨n, hn, hd⟩ := toUpper_digit (hdigits d (List.mem_cons_of_mem _ List.mem_cons_self))
  refine ⟨UInt8.ofNat (16 * m + n), ?_⟩
  rw [hexByte_digits hm hn, List.map_cons, List.map_singleton, hc, hd]

/-- Eight hexadecimal digits, in any case. -/
structure IsHexWord (hex : Str) : Prop where
  /-- There are eight characters. -/
  eight : hex.length = 8
  /-- They are digits. -/
  digits : ∀ c ∈ hex, c ∈ "0123456789abcdefABCDEF".toList

/-- Two of the characters are those of a byte, up to letter case. -/
theorem IsHexWord.exists_byteAt {hex : Str} (h : IsHexWord hex) {n : Nat} (hn : n ≤ 6) :
    ∃ byte, ((hex.drop n).take 2).map Char.toUpper = hexByte byte := by
  refine exists_hexByte ?_ fun c hc => h.digits c (List.mem_of_mem_drop (List.mem_of_mem_take hc))
  have height := h.eight
  rw [List.length_take, List.length_drop]
  omega

/-- Eight digits are those of an address, up to letter case. -/
theorem IsHexWord.exists_hexText {hex : Str} (h : IsHexWord hex) :
    ∃ q : Quad, hex.map Char.toUpper = q.hexText := by
  obtain ⟨d, hd⟩ := h.exists_byteAt (Nat.zero_le 6)
  obtain ⟨c, hc⟩ := h.exists_byteAt (by decide : 2 ≤ 6)
  obtain ⟨b, hb⟩ := h.exists_byteAt (by decide : 4 ≤ 6)
  obtain ⟨a, ha⟩ := h.exists_byteAt (Nat.le_refl 6)
  have hstep (n : Nat) : (hex.drop n).take 2 ++ hex.drop (n + 2) = hex.drop n := by
    rw [← List.drop_drop]
    exact List.take_append_drop 2 _
  have hend : hex.drop 8 = [] := List.drop_eq_nil_of_le (Nat.le_of_eq h.eight)
  have hparts : hex = (hex.drop 0).take 2 ++ ((hex.drop 2).take 2 ++ ((hex.drop 4).take 2 ++
      (hex.drop 6).take 2)) := by
    rw [← List.append_nil ((hex.drop 6).take 2), ← hend, hstep 6, hstep 4, hstep 2, hstep 0, List.drop_zero]
  refine ⟨⟨a, b, c, d⟩, ?_⟩
  rw [hparts, List.map_append, List.map_append, List.map_append, ha, hb, hc, hd, Quad.hexText]

/-! ## Decoding -/

/-- The digits of an address are decoded in any case. -/
theorem hexToIP_of_toUpper {hex : Str} {q : Quad} (h : hex.map Char.toUpper = q.hexText) :
    hexToIP hex = .ok (inetNtop q) := by
  rw [← hexToIP_toUpper, h, hexToIP_quad]

/-- `HexToIP` undoes the printing of IPv4 addresses in either case. It decodes
all texts of eight digits, and merges only those that differ in letter case. -/
theorem hexToIP_decodes :
    (∀ (q : Quad) (hex : Str), hex.map Char.toUpper = q.hexText →
      ∃ ip, hexToIP hex = .ok ip ∧ IsDotted ip q) ∧
    (∀ hex : Str, IsHexWord hex → ∃ ip, hexToIP hex = .ok ip) ∧
    ∀ hex hex' : Str, IsHexWord hex → IsHexWord hex' →
      (hexToIP hex = hexToIP hex' ↔ hex.map Char.toUpper = hex'.map Char.toUpper) := by
  refine ⟨?_, ?_, ?_⟩
  · intro q hex h
    exact ⟨_, hexToIP_of_toUpper h, isDotted_inetNtop q⟩
  · intro hex h
    obtain ⟨q, hq⟩ := h.exists_hexText
    exact ⟨_, hexToIP_of_toUpper hq⟩
  · intro hex hex' h h'
    obtain ⟨q, hq⟩ := h.exists_hexText
    obtain ⟨q', hq'⟩ := h'.exists_hexText
    rw [hexToIP_of_toUpper hq, hexToIP_of_toUpper hq', hq, hq', Except.ok.injEq, inetNtop_injective.eq_iff,
      Quad.hexText_injective.eq_iff]

/-- Small letters are decoded, and the bytes are put back in order. -/
theorem hexToIP_decodes_lower_case :
    ∃ ip, hexToIP "6400a8c0".toList = .ok ip ∧ IsDotted ip ⟨192, 168, 0, 100⟩ :=
  hexToIP_decodes.1 ⟨192, 168, 0, 100⟩ "6400a8c0".toList (by decide)

end CurlHttpfs.Tcp
