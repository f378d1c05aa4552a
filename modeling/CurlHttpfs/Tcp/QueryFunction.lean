import CurlHttpfs.Lib.Paging
import CurlHttpfs.Lib.Sorting
import CurlHttpfs.Tcp.ConnectionFetcher
import CurlHttpfs.Tcp.DataChunk
import Mathlib.Data.Char
import Mathlib.Data.List.Lex

/-!
# The table function

`curl_httpfs_get_tcp_connection` copies the counts out of the map, sorts them by
address and hands them out in chunks. Its state keeps an offset between the
calls, and a call that finds nothing left does not touch its chunk.
-/

namespace CurlHttpfs.Tcp

open Http Paging Sorting Tally Text

/-! ## State -/

/-- `TcpConnectionStatus`. -/
structure TcpConnectionStatus where
  /-- A remote address. -/
  ip : Str
  /-- TCP connection count for the IP. -/
  count : Nat
  deriving DecidableEq

/-- `TcpConnectionData`. -/
structure TcpConnectionData where
  /-- The sorted counts. -/
  tcpConnectionStatus : List TcpConnectionStatus
  /-- Used to record the progress of emission. -/
  offset : Nat

variable {standardVectorSize : Nat} [ChunkType standardVectorSize]

/-- The row of a count. -/
def TcpConnectionStatus.row (entry : TcpConnectionStatus) : DataChunk.Row standardVectorSize :=
  (ChunkType.varchar entry.ip, ChunkType.bigint entry.count)

/-! ## The functions -/

/-- A map entry as a `TcpConnectionStatus`. -/
def statusOf (entry : Sigma fun _ : Str => Nat) : TcpConnectionStatus := ⟨entry.1, entry.2⟩

/-- `GetTcpConnectionNumFuncInit`, where `iteration` lists a map in the order of its buckets. -/
def getTcpConnectionNumFuncInit (iteration : Counters Str → List (Sigma fun _ : Str => Nat))
    (tcp tcp6 : Str) : Except Fault TcpConnectionData := do
  let tcpConnectionMap ← getTcpConnectionNum tcp tcp6
  return ⟨sortBy TcpConnectionStatus.ip ((iteration tcpConnectionMap).map statusOf), 0⟩

/-- The variables of the loop that fills a chunk. -/
structure Filling (standardVectorSize : Nat) [ChunkType standardVectorSize] where
  /-- `data.offset`. -/
  offset : Nat
  /-- The number of rows so far. -/
  count : Nat
  /-- The chunk. -/
  output : DataChunk standardVectorSize

/-- The loop that fills a chunk. Its first argument is `STANDARD_VECTOR_SIZE - count`. -/
def fill (status : List TcpConnectionStatus) : Nat → Filling standardVectorSize → Filling standardVectorSize
  | 0, filling => filling
  | room + 1, filling =>
    match status[filling.offset]? with
    | none => filling
    | some entry =>
      let output := ChunkType.setValue filling.output 0 filling.count (ChunkType.varchar entry.ip)
      let output := ChunkType.setValue output 1 filling.count (ChunkType.bigint entry.count)
      fill status room ⟨filling.offset + 1, filling.count + 1, output⟩

/-- `GetTcpConnectionNumTableFunc`. -/
def getTcpConnectionNumTableFunc (data : TcpConnectionData) (output : DataChunk standardVectorSize) :
    TcpConnectionData × DataChunk standardVectorSize :=
  if data.tcpConnectionStatus.length ≤ data.offset then (data, output)
  else
    let filled := fill data.tcpConnectionStatus standardVectorSize ⟨data.offset, 0, output⟩
    ({ data with offset := filled.offset }, ChunkType.setCardinality filled.output filled.count)

/-! ## One call -/

/-- The loop appends the next entries to the rows, as many as there is room for. -/
theorem fill_spec [LawfulChunkType standardVectorSize] (status : List TcpConnectionStatus) (room : Nat)
    (filling : Filling standardVectorSize) (hroom : filling.count + room ≤ standardVectorSize) :
    (fill status room filling).offset =
        filling.offset + ((status.drop filling.offset).take room).length ∧
      (fill status room filling).count =
        filling.count + ((status.drop filling.offset).take room).length ∧
      DataChunk.firstRows (fill status room filling).output (fill status room filling).count =
        DataChunk.firstRows filling.output filling.count ++
          ((status.drop filling.offset).take room).map TcpConnectionStatus.row := by
  induction room generalizing filling with
  | zero =>
    rw [List.take_zero, List.length_nil, List.map_nil, List.append_nil]
    exact ⟨rfl, rfl, rfl⟩
  | succ room ih =>
    rw [fill]
    cases hentry : status[filling.offset]? with
    | none =>
      rw [List.drop_eq_nil_of_le (List.getElem?_eq_none_iff.mp hentry), List.take_nil, List.length_nil,
        List.map_nil, List.append_nil]
      exact ⟨rfl, rfl, rfl⟩
    | some entry =>
      obtain ⟨hlt, rfl⟩ := List.getElem?_eq_some_iff.mp hentry
      have hcount : filling.count < standardVectorSize := by omega
      have hroom : filling.count + 1 + room ≤ standardVectorSize := by
        rwa [Nat.add_assoc, Nat.add_comm 1]
      obtain ⟨hoffset, hcounted, hrows⟩ := ih ⟨filling.offset + 1, filling.count + 1,
        ChunkType.setValue (ChunkType.setValue filling.output 0 filling.count
          (ChunkType.varchar status[filling.offset].ip)) 1 filling.count
          (ChunkType.bigint status[filling.offset].count)⟩ hroom
      rw [List.drop_eq_getElem_cons hlt, List.take_succ_cons, List.length_cons, List.map_cons]
      refine ⟨hoffset.trans ?_, hcounted.trans ?_, hrows.trans ?_⟩
      · dsimp only
        omega
      · dsimp only
        omega
      · rw [DataChunk.firstRows_setValue _ hcount, List.append_assoc]
        rfl

/-- The rows that are left. -/
def TcpConnectionData.left (data : TcpConnectionData) : List (DataChunk.Row standardVectorSize) :=
  (data.tcpConnectionStatus.drop data.offset).map TcpConnectionStatus.row

/-- A call puts the next rows into an empty chunk and leaves the others. -/
theorem tableFunc_handsOut [LawfulChunkType standardVectorSize] :
    HandsOut (@getTcpConnectionNumTableFunc standardVectorSize _) ChunkType.cardinality
      DataChunk.rows TcpConnectionData.left (fun output => ChunkType.cardinality output = 0)
      standardVectorSize := by
  refine ⟨fun output => ?_, fun data output hfresh => ?_, fun data output hfresh => ?_⟩
  · rw [DataChunk.rows, DataChunk.firstRows, List.length_map, List.length_range]
  · rw [getTcpConnectionNumTableFunc]
    split
    · rename_i hdone
      rw [TcpConnectionData.left, List.drop_eq_nil_of_le hdone, List.map_nil, List.take_nil, DataChunk.rows,
        hfresh]
      rfl
    · obtain ⟨-, hcount, hrows⟩ := fill_spec data.tcpConnectionStatus standardVectorSize ⟨data.offset, 0, output⟩
        (Nat.le_of_eq (Nat.zero_add _))
      have hle : (fill data.tcpConnectionStatus standardVectorSize ⟨data.offset, 0, output⟩).count ≤
          standardVectorSize := by
        rw [hcount, List.length_take]
        exact (Nat.zero_add _).trans_le (Nat.min_le_left _ _)
      rw [TcpConnectionData.left, ← List.map_take, DataChunk.rows_setCardinality _ hle]
      exact hrows
  · rw [getTcpConnectionNumTableFunc]
    split
    · rename_i hdone
      rw [TcpConnectionData.left, List.drop_eq_nil_of_le hdone, List.map_nil, List.drop_nil]
    · obtain ⟨hoffset, -, -⟩ := fill_spec data.tcpConnectionStatus standardVectorSize ⟨data.offset, 0, output⟩
        (Nat.le_of_eq (Nat.zero_add _))
      rw [TcpConnectionData.left, TcpConnectionData.left, ← List.map_drop]
      dsimp only at hoffset ⊢
      rw [hoffset, ← List.drop_drop]
      congr 1
      rw [List.drop_eq_drop_iff, List.length_take]
      omega

/-! ## The whole table -/

/-- An order in which a map lists its entries, each of them once. -/
def IsIteration (iteration : Counters Str → List (Sigma fun _ : Str => Nat)) : Prop :=
  ∀ m, (iteration m).Perm m.entries

/-- The table function is called until a chunk stays empty. -/
def emit (data : TcpConnectionData) (outputs : List (DataChunk standardVectorSize)) :
    Option (List (DataChunk standardVectorSize)) :=
  untilEmpty getTcpConnectionNumTableFunc ChunkType.cardinality data outputs

/-- Every sequence of empty chunks that is long enough gets the table: as few
chunks as possible have its rows, none of them is empty, and the next one is. -/
def Emits (standardVectorSize : Nat) [ChunkType standardVectorSize] (data : TcpConnectionData)
    (table : List TcpConnectionStatus) : Prop :=
  ∀ outputs : List (DataChunk standardVectorSize), (∀ output ∈ outputs, ChunkType.cardinality output = 0) →
    table.length ⌈/⌉ standardVectorSize + 1 ≤ outputs.length →
      ∃ chunks last, emit data outputs = some (chunks ++ [last]) ∧
        chunks.length = table.length ⌈/⌉ standardVectorSize ∧ ChunkType.cardinality last = 0 ∧
        (∀ chunk ∈ chunks, 1 ≤ ChunkType.cardinality chunk ∧
          ChunkType.cardinality chunk ≤ standardVectorSize) ∧
        chunks.flatMap DataChunk.rows = table.map TcpConnectionStatus.row

/-- A table is emitted from its start. -/
theorem emits_table [LawfulChunkType standardVectorSize] (hsize : 0 < standardVectorSize)
    (table : List TcpConnectionStatus) : Emits standardVectorSize ⟨table, 0⟩ table := by
  intro outputs hfresh hcalls
  have hleft : ((TcpConnectionData.mk table 0).left : List (DataChunk.Row standardVectorSize)).length = table.length :=
    List.length_map _
  rw [← hleft] at hcalls ⊢
  exact tableFunc_handsOut.untilEmpty_eq hsize hfresh hcalls

/-- The entries of a map, sorted by address. -/
def tableOf (m : Counters Str) : List TcpConnectionStatus :=
  sortBy TcpConnectionStatus.ip (m.entries.map statusOf)

theorem tableOf_perm (m : Counters Str) : (tableOf m).Perm (m.entries.map statusOf) := sortBy_perm

theorem statusOf_ip_nodup (m : Counters Str) :
    ((m.entries.map statusOf).map TcpConnectionStatus.ip).Nodup := by
  rw [List.map_map]
  exact m.keys_nodup

theorem tableOf_strict (m : Counters Str) : (tableOf m).Pairwise fun row row' => row.ip < row'.ip :=
  sortBy_strict (statusOf_ip_nodup m)

theorem mem_tableOf {m : Counters Str} {row : TcpConnectionStatus} :
    row ∈ tableOf m ↔ m.lookup row.ip = some row.count := by
  rw [(tableOf_perm m).mem_iff, List.mem_map, ← Option.mem_def, AList.mem_lookup_iff]
  constructor
  · rintro ⟨entry, hentry, rfl⟩
    exact hentry
  · exact fun hentry => ⟨_, hentry, rfl⟩

theorem tableOf_length (m : Counters Str) : (tableOf m).length = m.keys.length := by
  rw [(tableOf_perm m).length_eq, AList.keys, List.keys, List.length_map, List.length_map]

theorem tableOf_sum (m : Counters Str) :
    ((tableOf m).map TcpConnectionStatus.count).sum = (m.entries.map Sigma.snd).sum := by
  rw [((tableOf_perm m).map _).sum_eq, List.map_map]
  rfl

/-- The order of iteration does not matter. -/
theorem getTcpConnectionNumFuncInit_eq {iteration : Counters Str → List (Sigma fun _ : Str => Nat)}
    (hiteration : IsIteration iteration) {tcp tcp6 : Str} {m m' : Counters Str}
    (h : getTcpConnectionNum tcp tcp6 = .ok m') (hentries : m'.entries.Perm m.entries) :
    getTcpConnectionNumFuncInit iteration tcp tcp6 = .ok ⟨tableOf m, 0⟩ := by
  have hperm := ((hiteration m').trans hentries).map statusOf
  rw [getTcpConnectionNumFuncInit, h, tableOf, ← sortBy_eq_of_perm hperm (statusOf_ip_nodup m)]
  rfl

/-- All counts are emitted once, in the order of their addresses. The emitted
table is that of the accepted lines, in whichever order they are read and the
map lists its entries. -/
theorem getTcpConnection_emits_table {tcp tcp6 : Str} {m : Counters Str}
    (h : getTcpConnectionNum tcp tcp6 = .ok m) :
    ∃ table : List TcpConnectionStatus,
      table.Pairwise (fun row row' => row.ip < row'.ip) ∧
      (∀ row, row ∈ table ↔ m.lookup row.ip = some row.count) ∧
      table.length = m.keys.length ∧
      (∀ row ∈ table, row.count ≤ intMax) ∧
      (table.map TcpConnectionStatus.count).sum =
        (dataLines tcp).countP accepted + (dataLines tcp6).countP accepted ∧
      ∀ iteration, IsIteration iteration → ∀ tcp' tcp6' : Str,
        (dataLines tcp' ++ dataLines tcp6').Perm (dataLines tcp ++ dataLines tcp6) →
          ∃ data, getTcpConnectionNumFuncInit iteration tcp' tcp6' = .ok data ∧
            ∀ (standardVectorSize : Nat) [ChunkType standardVectorSize] [LawfulChunkType standardVectorSize],
              0 < standardVectorSize → Emits standardVectorSize data table := by
  refine ⟨tableOf m, tableOf_strict m, fun row => mem_tableOf, tableOf_length m, ?_, ?_, ?_⟩
  · intro row hrow
    exact (getTcpConnectionNum_count h (mem_tableOf.mp hrow)).2
  · rw [tableOf_sum, getTcpConnectionNum_sum h]
  · intro iteration hiteration tcp' tcp6' hlines
    obtain ⟨m', h', hentries⟩ := getTcpConnectionNum_perm hlines h
    refine ⟨_, getTcpConnectionNumFuncInit_eq hiteration h' hentries, fun standardVectorSize _ _ hsize => ?_⟩
    exact emits_table hsize (tableOf m)

/-- A table of two rows, one of which is too short. -/
def exampleTcp : Str := "sl local rem st\n0: 0100007F:0050 0100007F:C350 01\n1: 0100007F:0050\n".toList

/-- A table of one row. -/
def exampleTcp6 : Str := "sl local remote st\n0: 0:0050 00000000000000000000000001000000:C350 01".toList

/-- Two addresses are emitted, in either order of the rows. -/
theorem getTcpConnection_emits_two : ∃ table : List TcpConnectionStatus,
    table.length = 2 ∧ (table.map TcpConnectionStatus.count).sum = 2 ∧
      ∃ data, getTcpConnectionNumFuncInit AList.entries exampleTcp6 exampleTcp = .ok data ∧
        Emits 1 data table := by
  have h : getTcpConnectionNum exampleTcp exampleTcp6 =
      .ok ((AList.singleton "127.0.0.1".toList 1).insert "0.0.0.0".toList 1) := rfl
  obtain ⟨table, -, -, hlength, -, hsum, hemits⟩ := getTcpConnection_emits_table h
  obtain ⟨data, hdata, hemits⟩ := hemits AList.entries (fun m => List.Perm.refl _) exampleTcp6 exampleTcp
    List.perm_append_comm
  exact ⟨table, hlength, hsum, data, hdata, hemits 1 Nat.one_pos⟩

end CurlHttpfs.Tcp
