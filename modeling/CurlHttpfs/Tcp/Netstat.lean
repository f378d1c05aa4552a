import CurlHttpfs.Lib.LineBuffer
import CurlHttpfs.Tcp.ProcTable

/-!
# Connection counts from netstat

On macOS `GetTcpConnectionNum` reads the output of `netstat -anv -p tcp`. The
fifth column of a line is the foreign address and its port, with a dot between
them, and addresses are counted as netstat prints them. So IPv6 addresses are
kept apart here, while the Linux build merges them, and both builds agree
exactly on IPv4 connections.
-/

namespace CurlHttpfs.Tcp.Apple

open Http Tally Text

/-- `sizeof(line)`. -/
def lineSize : Nat := 512

/-- `string s(line)`: the characters in front of a terminator. -/
def cString (line : Str) : Str := line.takeWhile (· ≠ '\x00')

/-- `s.rfind(c)`. -/
def rfind? (c : Char) (s : Str) : Option Nat := (s.reverse.idxOf? c).map fun i => s.length - 1 - i

/-- The line names the columns. -/
def isHeading (line : Str) : Bool := decide ("Proto".toList <:+: cString line)

/-- The loop body of `GetTcpConnectionNum` behind `operator>>`. -/
def countColumns (aggregated : Counters Str) (proto remote state : Str) : Except Fault (Counters Str) :=
  if proto ≠ "tcp".toList ∧ proto ≠ "tcp4".toList ∧ proto ≠ "tcp6".toList then .ok aggregated
  else if remote = [] ∨ state = [] then .ok aggregated
  else
    match remote.idxOf? '.' with
    | none => .ok aggregated
    | some _ =>
      let ip := match rfind? '.' remote with
        | none => remote
        | some lastDot => remote.take lastDot
      countIP aggregated ip

/-- The loop body of `GetTcpConnectionNum`. -/
def parseLine (aggregated : Counters Str) (line : Str) : Except Fault (Counters Str) :=
  let (proto, iss) := extract (cString line)
  let (_recvq, iss) := extract iss
  let (_sendq, iss) := extract iss
  let (_local, iss) := extract iss
  let (remote, iss) := extract iss
  let (state, _iss) := extract iss
  countColumns aggregated proto remote state

/-- The reads of the second loop: those behind the heading. -/
def dataReads (output : Str) : List Str :=
  ((reads lineSize output).dropWhile fun line => !isHeading line).drop 1

/-- `GetTcpConnectionNum` on what netstat prints. -/
def getTcpConnectionNum (output : Str) : Except Fault (Counters Str) :=
  (dataReads output).foldlM parseLine ∅

/-! ## Counted lines -/

/-- The address that three columns count. -/
def addressOf? (proto remote state : Str) : Option Str :=
  if proto ∈ ["tcp".toList, "tcp4".toList, "tcp6".toList] ∧ state ≠ [] then
    (rfind? '.' remote).map remote.take
  else none

/-- The address that a line counts. -/
def countedAddress? (line : Str) : Option Str :=
  addressOf? ((columnsOf (cString line)).getD 0 []) ((columnsOf (cString line)).getD 4 [])
    ((columnsOf (cString line)).getD 5 [])

/-- A character is found from behind when it is found from the front. -/
theorem rfind?_isSome (c : Char) (s : Str) : (rfind? c s).isSome = (s.idxOf? c).isSome := by
  rw [rfind?, Option.isSome_map]
  refine Bool.eq_iff_iff.mpr ?_
  rw [List.isSome_idxOf?, List.isSome_idxOf?, List.mem_reverse]

/-- The last occurrence of a character in front of a text without it. -/
theorem rfind?_append {c : Char} {rest : Str} (h : c ∉ rest) (text : Str) :
    rfind? c (text ++ c :: rest) = some text.length := by
  have hreverse : (text ++ c :: rest).reverse = rest.reverse ++ c :: text.reverse := by
    rw [List.reverse_append, List.reverse_cons, List.append_assoc]
    rfl
  rw [rfind?, hreverse, idxOf?_append fun hm => h (List.mem_reverse.mp hm), Option.map_some,
    List.length_append, List.length_cons, List.length_reverse]
  congr 1
  omega

/-- The columns count an address, or nothing. -/
theorem countColumns_eq (aggregated : Counters Str) (proto remote state : Str) :
    countColumns aggregated proto remote state = match addressOf? proto remote state with
      | none => .ok aggregated
      | some ip => countIP aggregated ip := by
  unfold countColumns addressOf?
  by_cases hproto : proto ∈ ["tcp".toList, "tcp4".toList, "tcp6".toList]
  · have hknown : ¬(proto ≠ "tcp".toList ∧ proto ≠ "tcp4".toList ∧ proto ≠ "tcp6".toList) := by
      simp only [List.mem_cons, List.not_mem_nil, or_false] at hproto
      rcases hproto with h | h | h
      · exact fun hne => hne.1 h
      · exact fun hne => hne.2.1 h
      · exact fun hne => hne.2.2 h
    rw [if_neg hknown]
    by_cases hstate : state = []
    · rw [if_pos (Or.inr hstate), if_neg fun hboth => hboth.2 hstate]
    rw [if_pos (And.intro hproto hstate)]
    have hfound := rfind?_isSome '.' remote
    by_cases hremote : remote = []
    · rw [if_pos (Or.inl hremote), hremote]
      rfl
    rw [if_neg (not_or.mpr ⟨hremote, hstate⟩)]
    cases hfirst : remote.idxOf? '.' with
    | none =>
      rw [hfirst, Option.isSome_none, Option.isSome_eq_false_iff, Option.isNone_iff_eq_none] at hfound
      rw [hfound]
      rfl
    | some dot =>
      rw [hfirst] at hfound
      obtain ⟨lastDot, hlast⟩ := Option.isSome_iff_exists.mp hfound
      rw [hlast]
      rfl
  · have hunknown : proto ≠ "tcp".toList ∧ proto ≠ "tcp4".toList ∧ proto ≠ "tcp6".toList := by
      simp only [List.mem_cons, List.not_mem_nil, or_false, not_or] at hproto
      exact hproto
    rw [if_pos hunknown, if_neg fun hboth => hproto hboth.1]

/-- The loop body counts the address of a line of columns. -/
theorem parseLine_eq (aggregated : Counters Str) (line : Str) :
    parseLine aggregated line = match countedAddress? line with
      | none => .ok aggregated
      | some ip => countIP aggregated ip := by
  obtain ⟨hproto, h1⟩ := extract_columns (cString line)
  obtain ⟨-, h2⟩ := extract_columns (extract (cString line)).2
  obtain ⟨-, h3⟩ := extract_columns (extract (extract (cString line)).2).2
  obtain ⟨-, h4⟩ := extract_columns (extract (extract (extract (cString line)).2).2).2
  obtain ⟨hremote, h5⟩ := extract_columns (extract (extract (extract (extract (cString line)).2).2).2).2
  obtain ⟨hstate, -⟩ :=
    extract_columns (extract (extract (extract (extract (extract (cString line)).2).2).2).2).2
  rw [h5, h4, h3, h2, h1] at hstate
  rw [h4, h3, h2, h1] at hremote
  simp only [List.headD_eq_head?_getD, List.head?_eq_getElem?, List.getElem?_tail,
    ← List.getD_eq_getElem?_getD] at hproto hremote hstate
  rw [countedAddress?, ← hproto, ← hremote, ← hstate]
  exact countColumns_eq aggregated _ _ _

/-- The addresses that the output counts. -/
def countedAddresses (output : Str) : List Str := (dataReads output).filterMap countedAddress?

/-- The output is read when no address is counted too often, and then its
addresses are counted. -/
theorem getTcpConnectionNum_eq_ok_iff {output : Str} {m : Counters Str} :
    getTcpConnectionNum output = .ok m ↔ tally intMax ∅ (countedAddresses output) = some m := by
  rw [getTcpConnectionNum, countedAddresses]
  generalize (∅ : Counters Str) = start
  induction dataReads output generalizing start with
  | nil => exact ⟨fun h => congrArg some (Except.ok.inj h), fun h => congrArg Except.ok (Option.some.inj h)⟩
  | cons line lines ih =>
    rw [List.foldlM_cons, parseLine_eq]
    cases haddress : countedAddress? line with
    | none =>
      rw [List.filterMap_cons_none haddress]
      exact ih start
    | some ip =>
      rw [List.filterMap_cons_some haddress, tally_cons]
      cases hcount : increment intMax start ip with
      | none =>
        simp only [countIP, hcount]
        exact iff_of_false (fun h => by cases h) (fun h => by cases h)
      | some counted =>
        simp only [countIP, hcount]
        exact ih counted

/-! ## Listings -/

/-- A line that one read takes. -/
structure Line where
  /-- The characters. -/
  text : Str
  /-- They are one line. -/
  oneLine : '\n' ∉ text
  /-- It fits into the buffer. -/
  fits : text.length + 1 < lineSize
  /-- No character ends the string early. -/
  noNul : '\x00' ∉ text

/-- A line as the buffer holds it. -/
def Line.read (line : Line) : Str := line.text ++ ['\n']

/-- The string made of a line is the line. -/
theorem cString_read (line : Line) : cString line.read = line.read := by
  refine List.takeWhile_eq_self_iff.mpr fun c hc => decide_eq_true fun he => ?_
  rcases List.mem_append.mp hc with hm | hm
  · exact line.noNul (he ▸ hm)
  · rw [List.mem_singleton.mp hm] at he
    exact absurd he (by decide)

/-- The columns of a connection. -/
structure Columns where
  /-- The protocol. -/
  proto : Word
  /-- In front of the second column. -/
  gap1 : Gap
  /-- Bytes to be received. -/
  recvQ : Word
  /-- In front of the third column. -/
  gap2 : Gap
  /-- Bytes to be sent. -/
  sendQ : Word
  /-- In front of the fourth column. -/
  gap3 : Gap
  /-- Local address and port. -/
  localAddress : Word
  /-- In front of the fifth column. -/
  gap4 : Gap
  /-- The foreign address. -/
  host : Str
  /-- It belongs to the fifth column. -/
  host_solid : ∀ c ∈ host, isSpace c = false
  /-- The foreign port. -/
  port : Str
  /-- It belongs to the fifth column. -/
  port_solid : ∀ c ∈ port, isSpace c = false
  /-- It is a number or a name. -/
  port_plain : '.' ∉ port
  /-- In front of the sixth column. -/
  gap5 : Gap
  /-- State of the connection. -/
  state : Word
  /-- The other columns. -/
  others : Str
  /-- They are apart from the sixth. -/
  others_apart : EndsWord (others ++ ['\n'])

/-- The fifth column. -/
def Columns.remoteColumn (c : Columns) : Str := c.host ++ '.' :: c.port

/-- The protocol is one that is counted. A socket of both versions is listed as tcp46. -/
def Columns.counted (c : Columns) : Bool :=
  decide (c.proto.text ∈ ["tcp".toList, "tcp4".toList, "tcp6".toList])

/-- The columns and what is between them. -/
def Columns.text (c : Columns) : Str :=
  c.proto.text ++ (c.gap1.text ++ (c.recvQ.text ++ (c.gap2.text ++ (c.sendQ.text ++ (c.gap3.text ++
    (c.localAddress.text ++ (c.gap4.text ++ (c.remoteColumn ++ (c.gap5.text ++
      (c.state.text ++ c.others))))))))))

/-- A line that is made of the columns of a connection. -/
structure Row extends Line where
  /-- The columns. -/
  columns : Columns
  /-- They are the line. -/
  made : text = columns.text

/-- A line that is not made of them. -/
structure Other extends Line where
  /-- It has too few columns, or a fifth one without a port. -/
  lacks : (columnsOf toLine.read).length < 6 ∨ '.' ∉ (columnsOf toLine.read).getD 4 []

/-- A line behind the heading. -/
inductive Entry where
  /-- A connection. -/
  | connection (row : Row)
  /-- Anything else. -/
  | other (line : Other)

/-- The line itself. -/
def Entry.line : Entry → Line
  | .connection row => row.toLine
  | .other line => line.toLine

/-- The columns of a connection. -/
def Entry.columns? : Entry → Option Columns
  | .connection row => some row.columns
  | .other _ => none

/-- What netstat prints: lines in front of the heading, the heading, and lines behind it. -/
structure Listing where
  /-- Lines in front of the heading. -/
  preamble : List Line
  /-- None of them names the columns. -/
  preamble_plain : ∀ line ∈ preamble, isHeading line.read = false
  /-- The heading. -/
  heading : Line
  /-- It names the columns. -/
  heading_names : isHeading heading.read = true
  /-- Connections and other lines. -/
  entries : List Entry

/-- All lines. -/
def Listing.lines (l : Listing) : List Line := l.preamble ++ l.heading :: l.entries.map Entry.line

/-- The listing as text. -/
def Listing.output (l : Listing) : Str := l.lines.flatMap Line.read

/-- The connections of a listing. -/
def Listing.connections (l : Listing) : List Columns := l.entries.filterMap Entry.columns?

/-- The foreign addresses of the connections whose protocol is counted, line by line. -/
def Listing.hosts (l : Listing) : List Str := (l.connections.filter Columns.counted).map Columns.host

/-- Lines that fit are read one by one. -/
theorem reads_lines (lines : List Line) : reads lineSize (lines.flatMap Line.read) = lines.map Line.read := by
  have hone : ∀ text ∈ lines.map Line.text, '\n' ∉ text := List.forall_mem_map.mpr fun line _ => line.oneLine
  have hfits : ∀ text ∈ lines.map Line.text, text.length + 1 < lineSize :=
    List.forall_mem_map.mpr fun line _ => line.fits
  have hreads := reads_flatMap hone hfits []
  rw [List.append_nil, List.flatMap_map, List.map_map] at hreads
  exact hreads.trans (List.append_nil _)

/-- The second loop reads the lines behind the heading. -/
theorem dataReads_output (l : Listing) : dataReads l.output = l.entries.map fun entry => entry.line.read := by
  have hplain : ∀ line ∈ l.preamble.map Line.read, (!isHeading line) = true := by
    refine List.forall_mem_map.mpr fun line hline => ?_
    rw [l.preamble_plain line hline]
    rfl
  have hstops : ¬(!isHeading l.heading.read) = true := by
    rw [l.heading_names]
    decide
  rw [dataReads, Listing.output, reads_lines, Listing.lines, List.map_append, List.map_cons,
    List.dropWhile_append_of_pos hplain, List.dropWhile_cons_of_neg (by exact hstops), List.drop_one,
    List.tail_cons, List.map_map]
  rfl

/-- The fifth column is a column. -/
theorem Columns.remoteColumn_word (c : Columns) : IsWord c.remoteColumn := by
  refine ⟨List.append_ne_nil_of_right_ne_nil _ (List.cons_ne_nil _ _), fun d hd => ?_⟩
  rcases List.mem_append.mp hd with hhost | hport
  · exact c.host_solid d hhost
  · rcases List.mem_cons.mp hport with rfl | hport
    · decide
    · exact c.port_solid d hport

/-- A word behind white space is the next column. -/
theorem columnsOf_next (gap : Gap) {word rest : Str} (hword : IsWord word) (hrest : EndsWord rest) :
    columnsOf (gap.text ++ (word ++ rest)) = word :: columnsOf rest := by
  have hskip : ∀ text, IsGap text → columnsOf (text ++ (word ++ rest)) = columnsOf (word ++ rest) := by
    intro text htext
    induction text with
    | nil => rfl
    | cons c text ih =>
      rw [List.cons_append, columnsOf_space (htext c List.mem_cons_self)]
      exact ih fun d hd => htext d (List.mem_cons_of_mem _ hd)
  rw [hskip gap.text gap.blank, columnsOf_word hword hrest]

/-- The six columns of a connection stand where they are looked for. -/
theorem columnsOf_read (row : Row) : columnsOf row.read =
    row.columns.proto.text :: row.columns.recvQ.text :: row.columns.sendQ.text :: row.columns.localAddress.text ::
      row.columns.remoteColumn :: row.columns.state.text :: columnsOf (row.columns.others ++ ['\n']) := by
  rw [Line.read, row.made]
  simp only [Columns.text, List.append_assoc]
  rw [columnsOf_word row.columns.proto.word (row.columns.gap1.endsWord _),
    columnsOf_next _ row.columns.recvQ.word (row.columns.gap2.endsWord _),
    columnsOf_next _ row.columns.sendQ.word (row.columns.gap3.endsWord _),
    columnsOf_next _ row.columns.localAddress.word (row.columns.gap4.endsWord _),
    columnsOf_next _ row.columns.remoteColumn_word (row.columns.gap5.endsWord _),
    columnsOf_next _ row.columns.state.word row.columns.others_apart]

/-- A connection counts its foreign address if its protocol is counted. -/
theorem countedAddress?_row (row : Row) :
    countedAddress? row.read = if row.columns.counted = true then some row.columns.host else none := by
  have hstate := row.columns.state.word.nonempty
  rw [countedAddress?, cString_read, columnsOf_read]
  simp only [List.getD_cons_zero, List.getD_cons_succ]
  unfold addressOf? Columns.counted
  by_cases hproto : row.columns.proto.text ∈ ["tcp".toList, "tcp4".toList, "tcp6".toList]
  · rw [if_pos ⟨hproto, hstate⟩, if_pos (decide_eq_true hproto), Columns.remoteColumn,
      rfind?_append row.columns.port_plain, Option.map_some, List.take_left]
  · rw [if_neg fun hboth => hproto hboth.1, if_neg fun hcounted => hproto (of_decide_eq_true hcounted)]

/-- Other lines count nothing. -/
theorem countedAddress?_other (line : Other) : countedAddress? line.read = none := by
  rw [countedAddress?, cString_read]
  unfold addressOf?
  rcases line.lacks with hshort | hdot
  · have hstate : (columnsOf line.read).getD 5 [] = [] := by
      rw [List.getD_eq_getElem?_getD, List.getElem?_eq_none (Nat.le_of_lt_succ hshort), Option.getD_none]
    rw [if_neg fun hboth => hboth.2 hstate]
  · have hnone : rfind? '.' ((columnsOf line.read).getD 4 []) = none := by
      refine Option.not_isSome_iff_eq_none.mp fun hfound => hdot ?_
      rw [rfind?_isSome] at hfound
      exact List.isSome_idxOf?.mp hfound
    rw [hnone, Option.map_none, ite_self]

/-- What a line counts. -/
theorem countedAddress?_entry (entry : Entry) : countedAddress? entry.line.read =
    entry.columns?.bind fun c => if c.counted = true then some c.host else none := by
  cases entry with
  | connection row => exact countedAddress?_row row
  | other line => exact countedAddress?_other line

/-- The listing is counted by the foreign addresses of its counted connections. -/
theorem countedAddresses_output (l : Listing) : countedAddresses l.output = l.hosts := by
  have hentry : (countedAddress? ∘ fun entry : Entry => entry.line.read) =
      fun entry => entry.columns?.bind fun c => if c.counted = true then some c.host else none :=
    funext countedAddress?_entry
  rw [countedAddresses, dataReads_output, List.filterMap_map, hentry, Listing.hosts, Listing.connections,
    ← List.filterMap_eq_map', List.filterMap_filter, List.filterMap_filterMap]

/-- On macOS connections are grouped by foreign address, IPv4 and IPv6 alike:
the map has a key for each address netstat prints on a line of tcp, tcp4 or
tcp6, with its number of such lines, and no other key, whatever other lines
there are, if and only if no address has more than `INT_MAX` of them. -/
theorem netstat_grouped_iff (l : Listing) :
    (∃ m, getTcpConnectionNum l.output = .ok m ∧
      ∀ ip, m.lookup ip = if ip ∈ l.hosts then some (l.hosts.count ip) else none) ↔
      ∀ ip ∈ l.hosts, l.hosts.count ip ≤ intMax := by
  simp only [getTcpConnectionNum_eq_ok_iff, countedAddresses_output]
  constructor
  · rintro ⟨m, htally, -⟩ ip hip
    have hlimit := tally_isSome_iff.mp (htally ▸ Option.isSome_some) ip hip
    rw [countOf_empty, Nat.zero_add] at hlimit
    exact hlimit
  · intro hbound
    have hsome : (tally intMax ∅ l.hosts).isSome := by
      refine tally_isSome_iff.mpr fun ip hip => ?_
      rw [countOf_empty, Nat.zero_add]
      exact hbound ip hip
    obtain ⟨m, htally⟩ := Option.isSome_iff_exists.mp hsome
    exact ⟨m, htally, tally_empty_lookup htally⟩

/-! ## Both builds -/

/-- Two platforms that see the same connections: the tables of procfs and the
listing of netstat name the same remote addresses, in any order. netstat
prints an IPv4 address in dotted decimal unless it is the unspecified one of
a listening socket, and nothing else that way. Only sockets that procfs lists
under IPv6 have a line with another protocol. -/
structure SameConnections (tcp tcp6 : Table) (l : Listing) where
  /-- How netstat prints an address. -/
  printed : RemoteAddress → Str
  /-- IPv4 addresses are dotted. -/
  dotted : ∀ q, q ≠ ⟨0, 0, 0, 0⟩ → printed (.v4 q) = inetNtop q
  /-- The unspecified one is not. -/
  unspecified : ∀ q, printed (.v4 ⟨0, 0, 0, 0⟩) ≠ inetNtop q
  /-- IPv6 addresses are not. -/
  v6 : ∀ w0 w1 w2 w3 q, printed (.v6 w0 w1 w2 w3) ≠ inetNtop q
  /-- The connections are the same. -/
  same : (l.connections.map Columns.host).Perm ((tcp.remotes ++ tcp6.remotes).map printed)
  /-- Those that are not counted are of IPv6. -/
  uncounted : ∀ c ∈ l.connections, c.counted = false → ∃ w0 w1 w2 w3, c.host = printed (.v6 w0 w1 w2 w3)

/-- Nothing but the IPv4 address itself is printed in dotted decimal. -/
theorem SameConnections.printed_dotted {tcp tcp6 : Table} {l : Listing} (connections : SameConnections tcp tcp6 l)
    {remote : RemoteAddress} {q : Quad} (h : connections.printed remote = inetNtop q) :
    remote = .v4 q ∧ q ≠ ⟨0, 0, 0, 0⟩ := by
  cases remote with
  | v4 p =>
    by_cases hp : p = ⟨0, 0, 0, 0⟩
    · rw [hp] at h
      exact absurd h (connections.unspecified q)
    · obtain rfl := inetNtop_injective ((connections.dotted p hp).symm.trans h)
      exact ⟨rfl, hp⟩
  | v6 w0 w1 w2 w3 => exact absurd h (connections.v6 w0 w1 w2 w3 q)

/-- An address that is counted is one of the connections. -/
theorem mem_of_hosts {l : Listing} {ip : Str} (h : ip ∈ l.hosts) : ip ∈ l.connections.map Columns.host := by
  obtain ⟨c, hc, rfl⟩ := List.mem_map.mp h
  exact List.mem_map_of_mem (List.mem_filter.mp hc).1

/-- With IPv4 connections only, every line of a connection is counted. -/
theorem SameConnections.hosts_eq {tcp tcp6 : Table} {l : Listing} (connections : SameConnections tcp tcp6 l)
    (hall : ∀ remote ∈ tcp.remotes ++ tcp6.remotes, ∃ q, remote = .v4 q ∧ q ≠ ⟨0, 0, 0, 0⟩) :
    l.hosts = l.connections.map Columns.host := by
  have hcounted : ∀ c ∈ l.connections, c.counted = true := by
    intro c hc
    by_contra hnot
    obtain ⟨w0, w1, w2, w3, hhost⟩ := connections.uncounted c hc (Bool.eq_false_iff.mpr hnot)
    obtain ⟨remote, hremote, hprinted⟩ :=
      List.mem_map.mp (connections.same.mem_iff.mp (List.mem_map_of_mem hc))
    obtain ⟨q, rfl, hq⟩ := hall remote hremote
    rw [hhost, connections.dotted q hq] at hprinted
    exact connections.v6 w0 w1 w2 w3 q hprinted.symm
  rw [Listing.hosts, List.filter_eq_self.mpr hcounted]

/-- Whenever both builds count the same connections, they produce the same
map if and only if every connection has an IPv4 remote address other than the
unspecified one. -/
theorem builds_agree_iff {tcp tcp6 : Table} {l : Listing} (connections : SameConnections tcp tcp6 l)
    {linux apple : Counters Str} (hlinux : Tcp.getTcpConnectionNum tcp.content tcp6.content = .ok linux)
    (happle : getTcpConnectionNum l.output = .ok apple) :
    (∀ ip, linux.lookup ip = apple.lookup ip) ↔
      ∀ remote ∈ tcp.remotes ++ tcp6.remotes, ∃ q, remote = .v4 q ∧ q ≠ ⟨0, 0, 0, 0⟩ := by
  rw [getTcpConnectionNum_content_iff] at hlinux
  rw [getTcpConnectionNum_eq_ok_iff, countedAddresses_output] at happle
  constructor
  · intro hsame remote hremote
    by_contra hnot
    -- the Linux build shows it as the unspecified address, which netstat never prints
    have hshown : remote.shown = inetNtop ⟨0, 0, 0, 0⟩ := by
      cases remote with
      | v4 p =>
        by_contra hne
        exact hnot ⟨p, rfl, fun hp => hne (congrArg inetNtop hp)⟩
      | v6 w0 w1 w2 w3 => rfl
    have hkey : inetNtop ⟨0, 0, 0, 0⟩ ∈ (tcp.remotes ++ tcp6.remotes).map RemoteAddress.shown :=
      hshown ▸ List.mem_map_of_mem hremote
    have habsent : inetNtop ⟨0, 0, 0, 0⟩ ∉ l.hosts := by
      intro hhost
      obtain ⟨other, -, hprinted⟩ := List.mem_map.mp (connections.same.mem_iff.mp (mem_of_hosts hhost))
      exact (connections.printed_dotted hprinted).2 rfl
    have hlookup := hsame (inetNtop ⟨0, 0, 0, 0⟩)
    rw [tally_empty_lookup hlinux, tally_empty_lookup happle, if_pos hkey, if_neg habsent] at hlookup
    cases hlookup
  · intro hall ip
    have hshown : (tcp.remotes ++ tcp6.remotes).map RemoteAddress.shown =
        (tcp.remotes ++ tcp6.remotes).map connections.printed := by
      refine List.map_congr_left fun remote hremote => ?_
      obtain ⟨q, rfl, hq⟩ := hall remote hremote
      exact (connections.dotted q hq).symm
    have hperm := connections.same
    rw [← connections.hosts_eq hall] at hperm
    rw [tally_empty_lookup hlinux, tally_empty_lookup happle, hshown, hperm.count_eq ip]
    simp only [hperm.mem_iff]

/-- A blank is white space. -/
theorem blank_isGap : IsGap [' '] := List.forall_mem_singleton.mpr rfl

theorem blank_oneLine : '\n' ∉ [' '] := by decide

theorem blank_nonempty : [' '] ≠ [] := List.cons_ne_nil _ _

/-- A single blank. -/
def blank : Gap := ⟨⟨[' '], blank_isGap, blank_oneLine⟩, blank_nonempty⟩

/-- The columns of a connection to 192.168.0.100. -/
def plainColumns : Columns where
  proto := ⟨"tcp4".toList, isWord_of_all (List.cons_ne_nil _ _) rfl⟩
  gap1 := blank
  recvQ := ⟨"0".toList, isWord_of_all (List.cons_ne_nil _ _) rfl⟩
  gap2 := blank
  sendQ := ⟨"0".toList, isWord_of_all (List.cons_ne_nil _ _) rfl⟩
  gap3 := blank
  localAddress := ⟨"10.0.0.5.52000".toList, isWord_of_all (List.cons_ne_nil _ _) rfl⟩
  gap4 := blank
  host := "192.168.0.100".toList
  host_solid := (isWord_of_all (List.cons_ne_nil _ _) rfl).solid
  port := "443".toList
  port_solid := (isWord_of_all (List.cons_ne_nil _ _) rfl).solid
  port_plain := by decide
  gap5 := blank
  state := ⟨"ESTABLISHED".toList, isWord_of_all (List.cons_ne_nil _ _) rfl⟩
  others := []
  others_apart := by
    intro c hc
    obtain rfl := Option.some.inj hc
    rfl

/-- A listing of one connection and an empty line. -/
def plainListing : Listing where
  preamble := [⟨"Active Internet connections".toList, by decide, by decide, by decide⟩]
  preamble_plain := by decide
  heading :=
    ⟨"Proto Recv-Q Send-Q Local Address Foreign Address (state)".toList, by decide, by decide, by decide⟩
  heading_names := by decide
  entries :=
    [.connection ⟨⟨plainColumns.text, by decide, by decide, by decide⟩, plainColumns, rfl⟩,
      .other ⟨⟨[], by decide, by decide, by decide⟩, .inl (by decide)⟩]

/-- Addresses in dotted decimal or in digits, and a star for the unspecified one. -/
def plainPrinted (remote : RemoteAddress) : Str :=
  if remote = .v4 ⟨0, 0, 0, 0⟩ then "*".toList else remote.label

/-- Both builds on one connection to 192.168.0.100. -/
theorem builds_agree_plain :
    ∃ linux apple, Tcp.getTcpConnectionNum
        (Table.content ⟨[], List.not_mem_nil, [plainRow (.v4 ⟨192, 168, 0, 100⟩)]⟩)
        (Table.content ⟨[], List.not_mem_nil, []⟩) = .ok linux ∧
      getTcpConnectionNum plainListing.output = .ok apple ∧
      ((∀ ip, linux.lookup ip = apple.lookup ip) ↔
        ∀ remote ∈ [RemoteAddress.v4 ⟨192, 168, 0, 100⟩], ∃ q, remote = .v4 q ∧ q ≠ ⟨0, 0, 0, 0⟩) := by
  have hdotted (q : Quad) : '.' ∈ inetNtop q := List.mem_append_right _ List.mem_cons_self
  have connections : SameConnections ⟨[], List.not_mem_nil, [plainRow (.v4 ⟨192, 168, 0, 100⟩)]⟩
      ⟨[], List.not_mem_nil, []⟩ plainListing :=
    { printed := plainPrinted
      dotted := fun q hq => if_neg fun he => hq (RemoteAddress.v4.inj he)
      unspecified := fun q he => absurd (he ▸ hdotted q) (by decide)
      v6 := fun w0 w1 w2 w3 q he =>
        absurd (he ▸ hdotted q) ((RemoteAddress.v6 w0 w1 w2 w3).notMem_hexText (by decide))
      same := List.Perm.of_eq rfl
      uncounted := fun c hc hnot => absurd (List.mem_singleton.mp hc ▸ hnot) (by decide) }
  have hlinux := (getTcpConnectionNum_content_iff ⟨[], List.not_mem_nil, [plainRow (.v4 ⟨192, 168, 0, 100⟩)]⟩
    ⟨[], List.not_mem_nil, []⟩ _).mpr rfl
  have hsome : (tally intMax ∅ plainListing.hosts).isSome = true := rfl
  obtain ⟨apple, htally⟩ := Option.isSome_iff_exists.mp hsome
  have happle : getTcpConnectionNum plainListing.output = .ok apple := by
    rw [getTcpConnectionNum_eq_ok_iff, countedAddresses_output]
    exact htally
  exact ⟨_, _, hlinux, happle, builds_agree_iff connections hlinux happle⟩

end CurlHttpfs.Tcp.Apple
