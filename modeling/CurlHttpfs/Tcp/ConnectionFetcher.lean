import CurlHttpfs.Http.HeaderMap
import CurlHttpfs.Lib.Tally
import CurlHttpfs.Lib.Text
import Mathlib.Data.List.Perm.Basic

/-!
# Connection counts from procfs

`GetTcpConnectionNum` reads two tables line by line. The third column of a line
is the remote address and its port. Addresses of eight digits are turned into
dotted decimal text, all others become `0.0.0.0`, and the counter of that text
is incremented. The counters add up to the number of lines that are not skipped,
in whichever order they stand.
-/

namespace CurlHttpfs.Tcp

open Http Tally Text

/-- Ways in which reading the tables fails. -/
inductive Fault where
  /-- An exception of `std::stoul`. -/
  | stoul (e : NumberError)
  /-- `++` of a counter that is `INT_MAX`, undefined behaviour. -/
  | counterOverflow
  deriving DecidableEq

/-- `INT_MAX`. -/
def intMax : Nat := 2147483647

/-- An IPv4 address, its bytes in network order. -/
structure Quad where
  /-- The first byte. -/
  a : UInt8
  /-- The second byte. -/
  b : UInt8
  /-- The third byte. -/
  c : UInt8
  /-- The fourth byte. -/
  d : UInt8
  deriving DecidableEq

/-- Decimal digits of a byte. -/
def decimal (byte : UInt8) : Str := Nat.toDigits 10 byte.toNat

/-- `inet_ntop` for `AF_INET`. -/
def inetNtop (q : Quad) : Str :=
  decimal q.a ++ '.' :: (decimal q.b ++ '.' :: (decimal q.c ++ '.' :: decimal q.d))

/-- `bytes[idx]`: two characters read as a number and cast to `unsigned char`. -/
def byteAt (hex : Str) (idx : Nat) : Except Fault UInt8 :=
  match stoul16 ((hex.drop (idx * 2)).take 2) with
  | .ok n => .ok (UInt8.ofNat n)
  | .error e => .error (.stoul e)

/-- `HexToIP`. -/
def hexToIP (hex : Str) : Except Fault Str :=
  if hex.length ≠ 8 then .ok "0.0.0.0".toList
  else do
    let byte0 ← byteAt hex 0
    let byte1 ← byteAt hex 1
    let byte2 ← byteAt hex 2
    let byte3 ← byteAt hex 3
    -- the bytes of the word are reversed
    return inetNtop ⟨byte3, byte2, byte1, byte0⟩

/-- `++per_remote_ip[ip]`. -/
def countIP (perRemoteIp : Counters Str) (ip : Str) : Except Fault (Counters Str) :=
  match increment intMax perRemoteIp ip with
  | some perRemoteIp => .ok perRemoteIp
  | none => .error .counterOverflow

/-- The loop body of `ParseProcTCP`. -/
def parseLine (perRemoteIp : Counters Str) (curLine : Str) : Except Fault (Counters Str) :=
  if curLine = [] then .ok perRemoteIp
  else
    let (_sl, ls) := extract curLine
    let (_local, ls) := extract ls
    let (remote, ls) := extract ls
    let (state, _ls) := extract ls
    if remote = [] ∨ state = [] then .ok perRemoteIp
    else
      match remote.idxOf? ':' with
      | none => .ok perRemoteIp
      | some colon => do
        let ip ← hexToIP (remote.take colon)
        countIP perRemoteIp ip

/-- `ParseProcTCP` on the content of the file, without its first line. -/
def parseProcTCP (content : Str) (perRemoteIp : Counters Str) : Except Fault (Counters Str) :=
  ((linesOf content).drop 1).foldlM parseLine perRemoteIp

/-- `GetTcpConnectionNum` on the contents of both files. -/
def getTcpConnectionNum (tcp tcp6 : Str) : Except Fault (Counters Str) := do
  let aggregated ← parseProcTCP tcp ∅
  parseProcTCP tcp6 aggregated

/-! ## Accepted lines -/

/-- The address in the third column of a line that is not skipped. -/
def addressColumn? (curLine : Str) : Option Str :=
  let remote := (extract (extract (extract curLine).2).2).1
  let state := (extract (extract (extract (extract curLine).2).2).2).1
  if remote = [] ∨ state = [] then none else (remote.idxOf? ':').map remote.take

/-- The addresses of all lines that are not skipped. -/
def addressColumns (content : Str) : List Str := ((linesOf content).drop 1).filterMap addressColumn?

/-- An address is turned into text and counted. -/
def countAddress (perRemoteIp : Counters Str) (hex : Str) : Except Fault (Counters Str) := do
  let ip ← hexToIP hex
  countIP perRemoteIp ip

/-- The loop body counts the address of a line that is not skipped. -/
theorem parseLine_eq (perRemoteIp : Counters Str) (curLine : Str) :
    parseLine perRemoteIp curLine = match addressColumn? curLine with
      | none => .ok perRemoteIp
      | some hex => countAddress perRemoteIp hex := by
  by_cases hempty : curLine = []
  · rw [hempty]
    rfl
  · simp only [parseLine, addressColumn?, if_neg hempty]
    split
    · rfl
    · cases (extract (extract (extract curLine).2).2).1.idxOf? ':' with
      | none => rfl
      | some colon => rfl

/-- A table counts the addresses of its lines in order. -/
theorem parseProcTCP_eq (content : Str) (perRemoteIp : Counters Str) :
    parseProcTCP content perRemoteIp = (addressColumns content).foldlM countAddress perRemoteIp := by
  rw [parseProcTCP, addressColumns, List.foldlM_filterMap]
  congr 1
  funext perRemoteIp curLine
  rw [parseLine_eq]
  cases addressColumn? curLine with
  | none => rfl
  | some hex => rfl

/-- Both tables are counted into one map. -/
theorem getTcpConnectionNum_eq (tcp tcp6 : Str) :
    getTcpConnectionNum tcp tcp6 = (addressColumns tcp ++ addressColumns tcp6).foldlM countAddress ∅ := by
  rw [List.foldlM_append, ← parseProcTCP_eq]
  simp only [← parseProcTCP_eq]
  rfl

theorem countIP_eq_ok_iff {ip : Str} {perRemoteIp after : Counters Str} :
    countIP perRemoteIp ip = .ok after ↔ increment intMax perRemoteIp ip = some after := by
  unfold countIP
  cases increment intMax perRemoteIp ip with
  | none => exact iff_of_false (fun h => by cases h) (Option.some_ne_none _).symm
  | some counted => rw [Except.ok.injEq, Option.some.injEq]

/-- One address is counted when it has a text whose counter is not at its limit. -/
theorem countAddress_eq_ok_iff {hex : Str} {perRemoteIp after : Counters Str} :
    countAddress perRemoteIp hex = .ok after ↔
      ∃ ip, hexToIP hex = .ok ip ∧ increment intMax perRemoteIp ip = some after := by
  constructor
  · intro h
    cases hip : hexToIP hex with
    | error fault =>
      rw [countAddress, hip] at h
      cases h
    | ok ip =>
      rw [countAddress, hip] at h
      exact ⟨ip, rfl, countIP_eq_ok_iff.mp h⟩
  · rintro ⟨ip, hip, hcount⟩
    rw [countAddress, hip]
    exact countIP_eq_ok_iff.mpr hcount

/-- Addresses are counted without a fault exactly when all of them have a text
and no text occurs too often. The result then counts the texts. -/
theorem countAddresses_eq_ok_iff {hexes : List Str} {perRemoteIp after : Counters Str} :
    hexes.foldlM countAddress perRemoteIp = .ok after ↔
      ∃ ips, hexes.map hexToIP = ips.map .ok ∧ tally intMax perRemoteIp ips = some after := by
  induction hexes generalizing perRemoteIp with
  | nil =>
    constructor
    · intro h
      exact ⟨[], rfl, congrArg some (Except.ok.inj h)⟩
    · rintro ⟨ips, hips, htally⟩
      obtain rfl := List.map_eq_nil_iff.mp hips.symm
      exact congrArg Except.ok (Option.some.inj htally)
  | cons hex hexes ih =>
    rw [List.foldlM_cons, List.map_cons]
    constructor
    · intro h
      cases hfirst : countAddress perRemoteIp hex with
      | error fault =>
        rw [hfirst] at h
        cases h
      | ok counted =>
        rw [hfirst] at h
        obtain ⟨ip, hip, hcount⟩ := countAddress_eq_ok_iff.mp hfirst
        obtain ⟨ips, hips, htally⟩ := ih.mp h
        refine ⟨ip :: ips, by rw [hip, hips, List.map_cons], ?_⟩
        rw [tally_cons, hcount]
        exact htally
    · rintro ⟨ips, hips, htally⟩
      cases ips with
      | nil => cases hips
      | cons ip ips =>
        obtain ⟨hip, hips⟩ := List.cons.inj hips
        rw [tally_cons] at htally
        obtain ⟨counted, hcount, htally⟩ := Option.bind_eq_some_iff.mp htally
        rw [countAddress_eq_ok_iff.mpr ⟨ip, hip, hcount⟩]
        exact ih.mpr ⟨ips, hips, htally⟩

/-! ## Conservation -/

/-- The lines below the heading. -/
def dataLines (content : Str) : List Str := (linesOf content).drop 1

/-- A line with at least four columns and a colon in the third. -/
def accepted (line : Str) : Bool := 4 ≤ (columnsOf line).length && ':' ∈ (columnsOf line).getD 2 []

/-- The loop body reads the third column and looks at the fourth. -/
theorem addressColumn?_columns (line : Str) :
    addressColumn? line = if (columnsOf line).getD 2 [] = [] ∨ (columnsOf line).getD 3 [] = [] then none
      else (((columnsOf line).getD 2 []).idxOf? ':').map ((columnsOf line).getD 2 []).take := by
  obtain ⟨-, h1⟩ := extract_columns line
  obtain ⟨-, h2⟩ := extract_columns (extract line).2
  obtain ⟨hremote, h3⟩ := extract_columns (extract (extract line).2).2
  obtain ⟨hstate, -⟩ := extract_columns (extract (extract (extract line).2).2).2
  rw [h3, h2, h1] at hstate
  rw [h2, h1] at hremote
  simp only [addressColumn?, hremote, hstate, List.headD_eq_head?_getD, List.head?_eq_getElem?,
    List.getElem?_tail, List.getD_eq_getElem?_getD]

/-- A line is skipped unless it has four columns and a colon in the third. -/
theorem addressColumn?_isSome (line : Str) : (addressColumn? line).isSome = accepted line := by
  rw [addressColumn?_columns, accepted]
  by_cases hcolumns : 4 ≤ (columnsOf line).length
  · have hsolid (n : Nat) (hn : n < (columnsOf line).length) : (columnsOf line).getD n [] ≠ [] := by
      rw [List.getD_eq_getElem?_getD, List.getElem?_eq_getElem hn, Option.getD_some]
      exact ne_nil_of_mem_columnsOf (List.getElem_mem hn)
    rw [if_neg (not_or.mpr ⟨hsolid 2 (by omega), hsolid 3 hcolumns⟩), Option.isSome_map,
      decide_eq_true hcolumns, Bool.true_and]
    exact Bool.eq_iff_iff.mpr (List.isSome_idxOf?.trans (decide_eq_true_iff).symm)
  · have hstate : (columnsOf line).getD 3 [] = [] := by
      rw [List.getD_eq_getElem?_getD, List.getElem?_eq_none (by omega), Option.getD_none]
    rw [if_pos (Or.inr hstate), decide_eq_false hcolumns]
    rfl

/-- Every line that is not skipped has an address. -/
theorem addressColumns_length (content : Str) :
    (addressColumns content).length = (dataLines content).countP accepted := by
  rw [addressColumns, List.length_filterMap_eq_countP]
  exact congrArg (List.countP · (dataLines content)) (funext addressColumn?_isSome)

section

variable {tcp tcp6 : Str} {m : Counters Str}

/-- Both tables are read when every address has a text and no text occurs too
often, and then the texts are counted. -/
theorem getTcpConnectionNum_eq_ok_iff :
    getTcpConnectionNum tcp tcp6 = .ok m ↔
      ∃ ips, (addressColumns tcp ++ addressColumns tcp6).map hexToIP = ips.map .ok ∧
        tally intMax ∅ ips = some m := by
  rw [getTcpConnectionNum_eq, countAddresses_eq_ok_iff]

/-- The counters add up to the number of accepted lines. -/
theorem getTcpConnectionNum_sum (h : getTcpConnectionNum tcp tcp6 = .ok m) :
    (m.entries.map Sigma.snd).sum = (dataLines tcp).countP accepted + (dataLines tcp6).countP accepted := by
  obtain ⟨ips, hips, htally⟩ := getTcpConnectionNum_eq_ok_iff.mp h
  have hlength := congrArg List.length hips
  rw [List.length_map, List.length_map, List.length_append, addressColumns_length,
    addressColumns_length] at hlength
  rw [tally_empty_sum htally, hlength]

/-- No counter is zero or above its limit. -/
theorem getTcpConnectionNum_count {ip : Str} {n : Nat} (h : getTcpConnectionNum tcp tcp6 = .ok m)
    (hn : m.lookup ip = some n) : 0 < n ∧ n ≤ intMax := by
  obtain ⟨ips, -, htally⟩ := getTcpConnectionNum_eq_ok_iff.mp h
  have hlimit := tally_isSome_iff.mp (htally ▸ Option.isSome_some)
  rw [tally_empty_lookup htally] at hn
  split at hn
  · rename_i hip
    obtain rfl := Option.some.inj hn
    exact ⟨List.count_pos_iff.mpr hip, (Nat.le_add_left _ _).trans (hlimit ip hip)⟩
  · cases hn

/-- The order of the lines does not matter. -/
theorem getTcpConnectionNum_perm {tcp' tcp6' : Str}
    (hlines : (dataLines tcp' ++ dataLines tcp6').Perm (dataLines tcp ++ dataLines tcp6))
    (h : getTcpConnectionNum tcp tcp6 = .ok m) :
    ∃ m', getTcpConnectionNum tcp' tcp6' = .ok m' ∧ m'.entries.Perm m.entries := by
  obtain ⟨ips, hips, htally⟩ := getTcpConnectionNum_eq_ok_iff.mp h
  have hhexes := (hlines.filterMap addressColumn?).map hexToIP
  rw [List.filterMap_append, List.filterMap_append] at hhexes
  have htexts := hhexes.trans (List.Perm.of_eq hips)
  -- reordered addresses have texts as well, in the same order as they
  obtain ⟨ips', hips', hperm⟩ := (congrFun (congrFun (List.eq_map_comp_perm Except.ok) _) ips).mpr htexts
  obtain ⟨m', htally', hentries⟩ := tally_perm hperm htally
  exact ⟨m', getTcpConnectionNum_eq_ok_iff.mpr ⟨ips', hips', htally'⟩, hentries⟩

end

/-! ## Eight digits -/

/-- Two digits at a byte's place are that byte. -/
theorem byteAt_digits {hex : Str} {idx : Nat} {c d : Char} {m n : Nat}
    (h : (hex.drop (idx * 2)).take 2 = [c, d]) (hc : hexValue? c = some m) (hd : hexValue? d = some n) :
    byteAt hex idx = .ok (UInt8.ofNat (16 * m + n)) := by
  rw [byteAt, h, stoul16_pair hc hd]

/-- Eight digits are read as four bytes, the last one first. -/
theorem hexToIP_digits {c0 c1 c2 c3 c4 c5 c6 c7 : Char} {n0 n1 n2 n3 n4 n5 n6 n7 : Nat}
    (h0 : hexValue? c0 = some n0) (h1 : hexValue? c1 = some n1) (h2 : hexValue? c2 = some n2)
    (h3 : hexValue? c3 = some n3) (h4 : hexValue? c4 = some n4) (h5 : hexValue? c5 = some n5)
    (h6 : hexValue? c6 = some n6) (h7 : hexValue? c7 = some n7) :
    hexToIP [c0, c1, c2, c3, c4, c5, c6, c7] = .ok (inetNtop ⟨UInt8.ofNat (16 * n6 + n7),
      UInt8.ofNat (16 * n4 + n5), UInt8.ofNat (16 * n2 + n3), UInt8.ofNat (16 * n0 + n1)⟩) := by
  rw [hexToIP, if_neg (fun h => h rfl), byteAt_digits rfl h0 h1, byteAt_digits rfl h2 h3,
    byteAt_digits rfl h4 h5, byteAt_digits rfl h6 h7]
  rfl

example : hexToIP "6400A8C0".toList = .ok "192.168.0.100".toList := by decide

/-- Text of any other length becomes one address. -/
theorem hexToIP_other {hex : Str} (h : hex.length ≠ 8) : hexToIP hex = .ok "0.0.0.0".toList := if_pos h

end CurlHttpfs.Tcp
