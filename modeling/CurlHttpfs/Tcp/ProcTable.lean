import CurlHttpfs.Tcp.ConnectionFetcher
import Mathlib.Data.List.Count

/-!
# Well-formed tables

The kernel prints one line for every connection below a heading. An IPv4
address is printed as one word in eight hexadecimal digits, an IPv6 address as
four words in thirty-two. Every row of a table is counted, the IPv4 rows by
their address and all IPv6 rows as `0.0.0.0`.
-/

namespace CurlHttpfs.Tcp

open Http Tally Text

/-! ## Addresses -/

/-- A digit of `%X`. -/
def hexDigit (n : Nat) : Char := "0123456789ABCDEF".toList.getD n '0'

/-- A byte in two digits. -/
def hexByte (byte : UInt8) : Str := [hexDigit (byte.toNat / 16), hexDigit (byte.toNat % 16)]

/-- `%08X` of a word in network order, read by a little-endian host. -/
def Quad.hexText (q : Quad) : Str := hexByte q.d ++ (hexByte q.c ++ (hexByte q.b ++ hexByte q.a))

/-- A remote address of either family. -/
inductive RemoteAddress where
  /-- An IPv4 address. -/
  | v4 (q : Quad)
  /-- The four words of an IPv6 address. -/
  | v6 (w0 w1 w2 w3 : Quad)
  deriving DecidableEq

/-- The address as the kernel prints it. -/
def RemoteAddress.hexText : RemoteAddress → Str
  | .v4 q => q.hexText
  | .v6 w0 w1 w2 w3 => w0.hexText ++ (w1.hexText ++ (w2.hexText ++ w3.hexText))

/-! ## Rows and tables -/

/-- White space within a line. -/
structure Blanks where
  /-- The characters. -/
  text : Str
  /-- They are white space. -/
  blank : IsGap text
  /-- The line goes on. -/
  oneLine : '\n' ∉ text

/-- White space between two columns. -/
structure Gap extends Blanks where
  /-- It separates them. -/
  nonempty : text ≠ []

/-- A column. -/
structure Word where
  /-- The characters. -/
  text : Str
  /-- There are some, and none is white space. -/
  word : IsWord text

/-- A line of a table. -/
structure Row where
  /-- In front of the first column. -/
  indent : Blanks
  /-- Number of the line. -/
  sl : Word
  /-- In front of the second column. -/
  gap1 : Gap
  /-- Local address and port. -/
  localAddress : Word
  /-- In front of the third column. -/
  gap2 : Gap
  /-- The remote address. -/
  remote : RemoteAddress
  /-- Digits of the port. -/
  port : Str
  /-- They belong to the third column. -/
  port_solid : ∀ c ∈ port, isSpace c = false
  /-- In front of the fourth column. -/
  gap3 : Gap
  /-- State of the connection. -/
  state : Word
  /-- The other columns. -/
  others : Str
  /-- They are apart from the fourth. -/
  others_apart : EndsWord others
  /-- They are on the same line. -/
  others_oneLine : '\n' ∉ others

/-- The third column. -/
def Row.remoteColumn (r : Row) : Str := r.remote.hexText ++ ':' :: r.port

/-- The line without its end. -/
def Row.text (r : Row) : Str :=
  r.indent.text ++ (r.sl.text ++ (r.gap1.text ++ (r.localAddress.text ++ (r.gap2.text ++ (r.remoteColumn ++
    (r.gap3.text ++ (r.state.text ++ r.others)))))))

/-- A heading line and any number of rows. -/
structure Table where
  /-- The first line. -/
  heading : Str
  /-- It is one line. -/
  heading_oneLine : '\n' ∉ heading
  /-- The other lines. -/
  rows : List Row

/-- The table as a file. -/
def Table.content (t : Table) : Str := t.heading ++ '\n' :: t.rows.flatMap fun r => r.text ++ ['\n']

/-- The remote addresses of a table, row by row. -/
def Table.remotes (t : Table) : List RemoteAddress := t.rows.map Row.remote

/-! ## Text of addresses -/

theorem hexValue?_hexDigit {n : Nat} (h : n < 16) : hexValue? (hexDigit n) = some n := by
  have hall : ∀ n < 16, hexValue? (hexDigit n) = some n := by decide
  exact hall n h

/-- The digits of a byte denote it. -/
theorem hexByte_value (byte : UInt8) : UInt8.ofNat (16 * (byte.toNat / 16) + byte.toNat % 16) = byte := by
  rw [Nat.div_add_mod, UInt8.ofNat_toNat]

/-- `HexToIP` undoes the printing of an IPv4 address. -/
theorem hexToIP_quad (q : Quad) : hexToIP q.hexText = .ok (inetNtop q) := by
  have high (byte : UInt8) : hexValue? (hexDigit (byte.toNat / 16)) = some (byte.toNat / 16) := by
    have hbyte := byte.toNat_lt
    exact hexValue?_hexDigit (by omega)
  have low (byte : UInt8) : hexValue? (hexDigit (byte.toNat % 16)) = some (byte.toNat % 16) :=
    hexValue?_hexDigit (Nat.mod_lt _ (by decide))
  have htext := hexToIP_digits (high q.d) (low q.d) (high q.c) (low q.c) (high q.b) (low q.b) (high q.a)
    (low q.a)
  simp only [hexByte_value] at htext
  exact htext

theorem hexByte_digit (byte : UInt8) {c : Char} (h : c ∈ hexByte byte) : ∃ n, hexValue? c = some n := by
  have hbyte := byte.toNat_lt
  rcases List.mem_cons.mp h with rfl | h
  · exact ⟨_, hexValue?_hexDigit (by omega)⟩
  · rw [List.mem_singleton.mp h]
    exact ⟨_, hexValue?_hexDigit (Nat.mod_lt _ (by decide))⟩

theorem Quad.hexText_digit (q : Quad) {c : Char} (h : c ∈ q.hexText) : ∃ n, hexValue? c = some n := by
  simp only [Quad.hexText, List.mem_append] at h
  rcases h with h | h | h | h
  · exact hexByte_digit q.d h
  · exact hexByte_digit q.c h
  · exact hexByte_digit q.b h
  · exact hexByte_digit q.a h

@[simp] theorem Quad.hexText_length (q : Quad) : q.hexText.length = 8 := rfl

/-- Printed addresses consist of digits. -/
theorem RemoteAddress.hexText_digit (remote : RemoteAddress) {c : Char} (h : c ∈ remote.hexText) :
    ∃ n, hexValue? c = some n := by
  cases remote with
  | v4 q => exact q.hexText_digit h
  | v6 w0 w1 w2 w3 =>
    simp only [RemoteAddress.hexText, List.mem_append] at h
    rcases h with h | h | h | h
    · exact w0.hexText_digit h
    · exact w1.hexText_digit h
    · exact w2.hexText_digit h
    · exact w3.hexText_digit h

/-- No address is printed with a character that is not a digit. -/
theorem RemoteAddress.notMem_hexText (remote : RemoteAddress) {c : Char} (h : hexValue? c = none) :
    c ∉ remote.hexText := by
  intro hmem
  obtain ⟨n, hn⟩ := remote.hexText_digit hmem
  rw [h] at hn
  cases hn

theorem decimal_digit (byte : UInt8) {c : Char} (h : c ∈ decimal byte) : c.isDigit = true :=
  Nat.isDigit_of_mem_toDigits (by decide) (by decide) h

theorem dot_notMem_decimal (byte : UInt8) : '.' ∉ decimal byte :=
  fun h => absurd (decimal_digit byte h) (by decide)

theorem decimal_inj {byte byte' : UInt8} (h : decimal byte = decimal byte') : byte = byte' := by
  have hnumber := congrArg (fun text => Nat.ofDigitChars 10 text 0) h
  simp only [decimal, Nat.ofDigitChars_ten_toDigits] at hnumber
  exact UInt8.toNat_inj.mp hnumber

/-- Different IPv4 addresses have different texts. -/
theorem inetNtop_injective : Function.Injective inetNtop := by
  intro q q' h
  obtain ⟨ha, h⟩ := append_cons_inj (dot_notMem_decimal _) (dot_notMem_decimal _) h
  obtain ⟨hb, h⟩ := append_cons_inj (dot_notMem_decimal _) (dot_notMem_decimal _) h
  obtain ⟨hc, hd⟩ := append_cons_inj (dot_notMem_decimal _) (dot_notMem_decimal _) h
  cases q
  cases q'
  rw [Quad.mk.injEq]
  exact ⟨decimal_inj ha, decimal_inj hb, decimal_inj hc, decimal_inj hd⟩

/-- Different IPv4 addresses are printed differently. -/
theorem Quad.hexText_injective : Function.Injective Quad.hexText := by
  intro q q' h
  have htext := (hexToIP_quad q).symm.trans ((congrArg hexToIP h).trans (hexToIP_quad q'))
  exact inetNtop_injective (Except.ok.inj htext)

/-- A text for every address: dotted decimal for IPv4, the digits for IPv6. -/
def RemoteAddress.label : RemoteAddress → Str
  | .v4 q => inetNtop q
  | .v6 w0 w1 w2 w3 => (RemoteAddress.v6 w0 w1 w2 w3).hexText

theorem RemoteAddress.label_injective : Function.Injective RemoteAddress.label := by
  have hdotted (q : Quad) : '.' ∈ inetNtop q := List.mem_append_right _ List.mem_cons_self
  have hdigits (remote : RemoteAddress) : '.' ∉ remote.hexText := remote.notMem_hexText (by decide)
  intro remote remote' h
  cases remote with
  | v4 q =>
    cases remote' with
    | v4 q' => exact congrArg RemoteAddress.v4 (inetNtop_injective h)
    | v6 w0 w1 w2 w3 =>
      have htext : inetNtop q = (RemoteAddress.v6 w0 w1 w2 w3).hexText := h
      exact absurd (htext ▸ hdotted q) (hdigits _)
  | v6 w0 w1 w2 w3 =>
    cases remote' with
    | v4 q' =>
      have htext : (RemoteAddress.v6 w0 w1 w2 w3).hexText = inetNtop q' := h
      exact absurd (htext ▸ hdotted q') (hdigits _)
    | v6 v0 v1 v2 v3 =>
      obtain ⟨h0, h⟩ := List.append_inj (show w0.hexText ++ _ = v0.hexText ++ _ from h) rfl
      obtain ⟨h1, h⟩ := List.append_inj h rfl
      obtain ⟨h2, h3⟩ := List.append_inj h rfl
      rw [Quad.hexText_injective h0, Quad.hexText_injective h1, Quad.hexText_injective h2,
        Quad.hexText_injective h3]

/-! ## Reading a table -/

/-- The third column is a column, and its first colon is behind the address. -/
theorem Row.remoteColumn_word (r : Row) : IsWord r.remoteColumn := by
  refine ⟨List.append_ne_nil_of_right_ne_nil _ (List.cons_ne_nil _ _), fun c hc => ?_⟩
  rcases List.mem_append.mp hc with haddress | hport
  · obtain ⟨n, hn⟩ := r.remote.hexText_digit haddress
    exact (hexValue?_digit hn).1
  · rcases List.mem_cons.mp hport with rfl | hport
    · decide
    · exact r.port_solid c hport

theorem Gap.endsWord (gap : Gap) (rest : Str) : EndsWord (gap.text ++ rest) := by
  intro c hc
  obtain ⟨d, text, htext⟩ := List.exists_cons_of_ne_nil gap.nonempty
  rw [htext] at hc
  have hfirst : d = c := Option.some.inj hc
  exact gap.blank c (htext ▸ hfirst ▸ List.mem_cons_self)

/-- Every row is accepted with its address. -/
theorem addressColumn?_row (r : Row) : addressColumn? r.text = some r.remote.hexText := by
  have hcolon : ':' ∉ r.remote.hexText := r.remote.notMem_hexText (by decide)
  have h1 (rest : Str) := extract_word r.indent.blank r.sl.word (r.gap1.endsWord rest)
  have h2 (rest : Str) := extract_word r.gap1.blank r.localAddress.word (r.gap2.endsWord rest)
  have h3 (rest : Str) := extract_word r.gap2.blank r.remoteColumn_word (r.gap3.endsWord rest)
  have h4 := extract_word r.gap3.blank r.state.word r.others_apart
  simp only [addressColumn?, Row.text, h1, h2, h3, h4, r.remoteColumn_word.nonempty,
    r.state.word.nonempty, or_self, if_false]
  rw [Row.remoteColumn, idxOf?_append hcolon, Option.map_some, List.take_left]

theorem Word.oneLine (word : Word) : '\n' ∉ word.text :=
  fun h => absurd (word.word.solid _ h) (by decide)

/-- A row is one line. -/
theorem Row.text_oneLine (r : Row) : '\n' ∉ r.text := by
  have hremote : '\n' ∉ r.remoteColumn := fun h => absurd (r.remoteColumn_word.solid _ h) (by decide)
  simp only [Row.text, List.mem_append, not_or]
  exact ⟨r.indent.oneLine, r.sl.oneLine, r.gap1.oneLine, r.localAddress.oneLine, r.gap2.oneLine, hremote,
    r.gap3.oneLine, r.state.oneLine, r.others_oneLine⟩

/-- A table is read row by row, below its heading. -/
theorem addressColumns_content (t : Table) :
    addressColumns t.content = t.remotes.map RemoteAddress.hexText := by
  have hlines : linesOf t.content = t.heading :: t.rows.map Row.text := by
    rw [Table.content, linesOf_line t.heading_oneLine, ← List.flatMap_map Row.text fun line => line ++ ['\n']]
    rw [linesOf_flatMap]
    intro line hline
    obtain ⟨r, -, rfl⟩ := List.mem_map.mp hline
    exact r.text_oneLine
  rw [addressColumns, hlines, List.drop_one, List.tail_cons, Table.remotes, List.map_map, List.filterMap_map]
  have hcolumn : addressColumn? ∘ Row.text = fun r => some r.remote.hexText := funext addressColumn?_row
  rw [hcolumn, List.filterMap_eq_map']
  rfl

/-! ## Grouping -/

/-- The text that a printed address is turned into. -/
def RemoteAddress.shown : RemoteAddress → Str
  | .v4 q => inetNtop q
  | .v6 _ _ _ _ => "0.0.0.0".toList

theorem hexToIP_hexText (remote : RemoteAddress) : hexToIP remote.hexText = .ok remote.shown := by
  cases remote with
  | v4 q => exact hexToIP_quad q
  | v6 w0 w1 w2 w3 =>
    refine hexToIP_other ?_
    simp only [RemoteAddress.hexText, List.length_append, Quad.hexText_length]
    decide

/-- Every text shown is that of an IPv4 address. -/
theorem RemoteAddress.shown_dotted (remote : RemoteAddress) : ∃ q, remote.shown = inetNtop q := by
  cases remote with
  | v4 q => exact ⟨q, rfl⟩
  | v6 w0 w1 w2 w3 => exact ⟨⟨0, 0, 0, 0⟩, rfl⟩

/-- Both tables are counted by the texts shown for their addresses. -/
theorem getTcpConnectionNum_content_iff (tcp tcp6 : Table) (m : Counters Str) :
    getTcpConnectionNum tcp.content tcp6.content = .ok m ↔
      tally intMax ∅ ((tcp.remotes ++ tcp6.remotes).map RemoteAddress.shown) = some m := by
  have hcolumns : addressColumns tcp.content ++ addressColumns tcp6.content =
      (tcp.remotes ++ tcp6.remotes).map RemoteAddress.hexText := by
    rw [addressColumns_content, addressColumns_content, List.map_append]
  have htexts : ((tcp.remotes ++ tcp6.remotes).map RemoteAddress.hexText).map hexToIP =
      ((tcp.remotes ++ tcp6.remotes).map RemoteAddress.shown).map Except.ok := by
    rw [List.map_map, List.map_map]
    exact List.map_congr_left fun remote _ => hexToIP_hexText remote
  rw [getTcpConnectionNum_eq_ok_iff, hcolumns, htexts]
  constructor
  · rintro ⟨ips, hips, htally⟩
    rw [List.map_injective_iff.mpr (fun _ _ => Except.ok.inj) hips]
    exact htally
  · exact fun htally => ⟨_, rfl, htally⟩

/-- The map has one key for each address that occurs, with its number of rows,
and no other key. IPv4 addresses have their dotted decimal text as key. -/
def Grouped (m : Counters Str) (remotes : List RemoteAddress) : Prop :=
  ∃ key : RemoteAddress → Str, Function.Injective key ∧ (∀ q, key (.v4 q) = inetNtop q) ∧
    (∀ remote, m.lookup (key remote) = if remote ∈ remotes then some (remotes.count remote) else none) ∧
    ∀ ip ∈ m, ∃ remote ∈ remotes, key remote = ip

/-- IPv4 addresses are shown under their labels. -/
theorem map_shown {remotes : List RemoteAddress} (h : ∀ remote ∈ remotes, ∃ q, remote = .v4 q) :
    remotes.map RemoteAddress.shown = remotes.map RemoteAddress.label := by
  refine List.map_congr_left fun remote hremote => ?_
  obtain ⟨q, rfl⟩ := h remote hremote
  rfl

/-- A map of shown texts has a key for each address only when no address is one of IPv6. -/
theorem Grouped.only_v4 {m : Counters Str} {remotes : List RemoteAddress} (h : Grouped m remotes)
    (htally : tally intMax ∅ (remotes.map RemoteAddress.shown) = some m) :
    ∀ remote ∈ remotes, ∃ q, remote = .v4 q := by
  obtain ⟨key, hinj, hdotted, hlookup, -⟩ := h
  intro remote hremote
  have hkey := hlookup remote
  rw [if_pos hremote, tally_empty_lookup htally] at hkey
  split at hkey
  · rename_i hshown
    obtain ⟨shown, -, htext⟩ := List.mem_map.mp hshown
    obtain ⟨q, hq⟩ := shown.shown_dotted
    exact ⟨q, hinj (htext.symm.trans (hq.trans (hdotted q).symm))⟩
  · cases hkey

/-- The counters do not overflow exactly when no IPv4 address occurs too often. -/
theorem tally_shown_iff {remotes : List RemoteAddress} (h : ∀ remote ∈ remotes, ∃ q, remote = .v4 q) :
    (tally intMax ∅ (remotes.map RemoteAddress.shown)).isSome ↔
      ∀ remote ∈ remotes, remotes.count remote ≤ intMax := by
  rw [map_shown h, tally_isSome_iff, List.forall_mem_map]
  simp only [countOf_empty, Nat.zero_add, List.count_map_of_injective _ _ RemoteAddress.label_injective]

/-- The labels of IPv4 addresses group them. -/
theorem grouped_label {m : Counters Str} {remotes : List RemoteAddress}
    (h : ∀ remote ∈ remotes, ∃ q, remote = .v4 q)
    (htally : tally intMax ∅ (remotes.map RemoteAddress.shown) = some m) : Grouped m remotes := by
  rw [map_shown h] at htally
  have hlookup := tally_empty_lookup htally
  refine ⟨RemoteAddress.label, RemoteAddress.label_injective, fun _ => rfl, ?_, ?_⟩
  · intro remote
    rw [hlookup, List.count_map_of_injective _ _ RemoteAddress.label_injective]
    simp only [List.mem_map_of_injective RemoteAddress.label_injective]
  · intro ip hip
    have hsome := AList.lookup_isSome.mpr hip
    rw [hlookup] at hsome
    split at hsome
    · rename_i hmem
      exact List.mem_map.mp hmem
    · cases hsome

/-- Connections are grouped by remote address if and only if all rows have IPv4
addresses and no address has more than `INT_MAX` rows. -/
theorem getTcpConnectionNum_grouped_iff (tcp tcp6 : Table) :
    (∃ m, getTcpConnectionNum tcp.content tcp6.content = .ok m ∧ Grouped m (tcp.remotes ++ tcp6.remotes)) ↔
      (∀ remote ∈ tcp.remotes ++ tcp6.remotes, ∃ q, remote = .v4 q) ∧
        ∀ remote ∈ tcp.remotes ++ tcp6.remotes, (tcp.remotes ++ tcp6.remotes).count remote ≤ intMax := by
  simp only [getTcpConnectionNum_content_iff]
  constructor
  · rintro ⟨m, htally, hgrouped⟩
    have hv4 := hgrouped.only_v4 htally
    refine ⟨hv4, (tally_shown_iff hv4).mp ?_⟩
    rw [htally]
    rfl
  · rintro ⟨hv4, hbound⟩
    obtain ⟨m, htally⟩ := Option.isSome_iff_exists.mp ((tally_shown_iff hv4).mpr hbound)
    exact ⟨m, htally, grouped_label hv4 htally⟩

/-- A row with single blanks and no further columns. -/
def plainRow (remote : RemoteAddress) : Row where
  indent := ⟨[], List.forall_mem_nil _, List.not_mem_nil⟩
  sl := ⟨"0:".toList, isWord_of_all (List.cons_ne_nil _ _) rfl⟩
  gap1 := ⟨⟨[' '], List.forall_mem_singleton.mpr rfl, by decide⟩, List.cons_ne_nil _ _⟩
  localAddress := ⟨"0100007F:C350".toList, isWord_of_all (List.cons_ne_nil _ _) rfl⟩
  gap2 := ⟨⟨[' '], List.forall_mem_singleton.mpr rfl, by decide⟩, List.cons_ne_nil _ _⟩
  remote := remote
  port := "01BB".toList
  port_solid := (isWord_of_all (List.cons_ne_nil _ _) rfl).solid
  gap3 := ⟨⟨[' '], List.forall_mem_singleton.mpr rfl, by decide⟩, List.cons_ne_nil _ _⟩
  state := ⟨"01".toList, isWord_of_all (List.cons_ne_nil _ _) rfl⟩
  others := []
  others_apart := by rintro c ⟨⟩
  others_oneLine := List.not_mem_nil

/-- The IPv6 address `::` with another last byte. -/
def lowAddress (last : UInt8) : RemoteAddress := .v6 ⟨0, 0, 0, 0⟩ ⟨0, 0, 0, 0⟩ ⟨0, 0, 0, 0⟩ ⟨0, 0, 0, last⟩

/-- Connections to `::1` and to `::2` get one key. -/
theorem ipv6_addresses_merged : ¬ ∀ tcp tcp6 : Table, ∃ m,
    getTcpConnectionNum tcp.content tcp6.content = .ok m ∧ Grouped m (tcp.remotes ++ tcp6.remotes) := by
  intro hall
  obtain ⟨m, hm, hgrouped⟩ := hall ⟨"sl local_address rem_address st".toList, by decide, []⟩
    ⟨"sl local_address remote_address st".toList, by decide,
      [plainRow (lowAddress 1), plainRow (lowAddress 2)]⟩
  rw [getTcpConnectionNum_content_iff] at hm
  obtain ⟨q, hq⟩ := hgrouped.only_v4 hm _ List.mem_cons_self
  cases hq

end CurlHttpfs.Tcp
