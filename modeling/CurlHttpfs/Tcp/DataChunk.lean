import Mathlib.Tactic.Common
import CurlHttpfs.Http.HeaderMap

/-!
# Data chunks

Table functions fill the chunks of DuckDB. The program writes the cells of two
columns and says how many rows it has written, and knows only that a cell
keeps what was written to it last.
-/

namespace CurlHttpfs.Tcp

open Http

/-- DuckDB's `DataChunk` and `Value`, compiled for some `STANDARD_VECTOR_SIZE`,
which the program only uses. -/
class ChunkType (standardVectorSize : Nat) where
  /-- The chunks. -/
  Chunk : Type
  /-- The values of cells. -/
  Value : Type
  /-- A `Value` of a text. -/
  varchar : Str → Value
  /-- A `Value` of a number, as a `BIGINT` column keeps it. -/
  bigint : Nat → Value
  /-- `DataChunk::SetValue`. -/
  setValue : Chunk → Nat → Nat → Value → Chunk
  /-- `DataChunk::SetCardinality`. -/
  setCardinality : Chunk → Nat → Chunk
  /-- The value of a cell, by column and row. -/
  cell : Chunk → Nat → Nat → Value
  /-- `DataChunk::size`. -/
  cardinality : Chunk → Nat

/-- What is known of a `DataChunk` of two columns: it has room for
`STANDARD_VECTOR_SIZE` rows, a cell keeps what is written to it, and the number
of rows is what it was set to. -/
class LawfulChunkType (standardVectorSize : Nat) [ChunkType standardVectorSize] : Prop where
  /-- A write changes its own cell only. -/
  cell_setValue (output : ChunkType.Chunk standardVectorSize) {colIdx index col row : Nat}
    (value : ChunkType.Value standardVectorSize) (hcolIdx : colIdx < 2) (hindex : index < standardVectorSize)
    (hcol : col < 2) (hrow : row < standardVectorSize) :
    ChunkType.cell (ChunkType.setValue output colIdx index value) col row =
      if col = colIdx ∧ row = index then value else ChunkType.cell output col row
  /-- The number of rows is no cell. -/
  cell_setCardinality (output : ChunkType.Chunk standardVectorSize) {count col row : Nat}
    (hcount : count ≤ standardVectorSize) (hcol : col < 2) (hrow : row < standardVectorSize) :
    ChunkType.cell (ChunkType.setCardinality output count) col row = ChunkType.cell output col row
  /-- It can be set to any number that there is room for. -/
  cardinality_setCardinality (output : ChunkType.Chunk standardVectorSize) {count : Nat}
    (hcount : count ≤ standardVectorSize) :
    ChunkType.cardinality (ChunkType.setCardinality output count) = count

/-- `DataChunk`. -/
abbrev DataChunk (standardVectorSize : Nat) [ChunkType standardVectorSize] : Type :=
  ChunkType.Chunk standardVectorSize

/-- `Value`. -/
abbrev Value (standardVectorSize : Nat) [ChunkType standardVectorSize] : Type :=
  ChunkType.Value standardVectorSize

/-- The values of both columns in a row. -/
abbrev DataChunk.Row (standardVectorSize : Nat) [ChunkType standardVectorSize] : Type :=
  Value standardVectorSize × Value standardVectorSize

namespace DataChunk

variable {standardVectorSize : Nat} [ChunkType standardVectorSize]

/-- Both cells of a row. -/
def row (output : DataChunk standardVectorSize) (index : Nat) : Row standardVectorSize :=
  (ChunkType.cell output 0 index, ChunkType.cell output 1 index)

/-- The first rows of a chunk. -/
def firstRows (output : DataChunk standardVectorSize) (count : Nat) : List (Row standardVectorSize) :=
  (List.range count).map output.row

/-- The rows in use. -/
def rows (output : DataChunk standardVectorSize) : List (Row standardVectorSize) :=
  firstRows output (ChunkType.cardinality output)

variable [LawfulChunkType standardVectorSize]

/-- Writing both cells of a row behind the first rows appends it. -/
theorem firstRows_setValue (output : DataChunk standardVectorSize) {count : Nat}
    (hcount : count < standardVectorSize) (text number : Value standardVectorSize) :
    firstRows (ChunkType.setValue (ChunkType.setValue output 0 count text) 1 count number) (count + 1) =
      firstRows output count ++ [(text, number)] := by
  have hzero : 0 < 2 := Nat.two_pos
  have hone : 1 < 2 := Nat.one_lt_two
  rw [firstRows, List.range_succ, List.map_append]
  congr 1
  · refine List.map_congr_left fun index hindex => ?_
    have hother := List.mem_range.mp hindex
    have hindex := Nat.lt_trans hother hcount
    simp only [row, LawfulChunkType.cell_setValue _ _ hone hcount hzero hindex,
      LawfulChunkType.cell_setValue _ _ hzero hcount hzero hindex,
      LawfulChunkType.cell_setValue _ _ hone hcount hone hindex,
      LawfulChunkType.cell_setValue _ _ hzero hcount hone hindex, Nat.ne_of_lt hother, and_false, if_false]
  · rw [List.map_singleton, row, LawfulChunkType.cell_setValue _ _ hone hcount hzero hcount,
      LawfulChunkType.cell_setValue _ _ hzero hcount hzero hcount,
      LawfulChunkType.cell_setValue _ _ hone hcount hone hcount, if_neg fun he => absurd he.1 (by decide),
      if_pos ⟨rfl, rfl⟩, if_pos ⟨rfl, rfl⟩]

/-- The rows in use are the first ones, as many as they were set to be. -/
theorem rows_setCardinality (output : DataChunk standardVectorSize) {count : Nat}
    (hcount : count ≤ standardVectorSize) :
    rows (ChunkType.setCardinality output count) = firstRows output count := by
  rw [rows, LawfulChunkType.cardinality_setCardinality output hcount]
  refine List.map_congr_left fun index hindex => ?_
  have hrow := Nat.lt_of_lt_of_le (List.mem_range.mp hindex) hcount
  rw [row, row, LawfulChunkType.cell_setCardinality output hcount Nat.two_pos hrow,
    LawfulChunkType.cell_setCardinality output hcount Nat.one_lt_two hrow]

end DataChunk

/-- A value of one of the two columns. -/
inductive Cell where
  /-- Text. -/
  | varchar (text : Str)
  /-- A number. -/
  | bigint (number : Nat)
  deriving DecidableEq

/-- Cells by column and row, and the number of rows that are in use. -/
structure CellChunk where
  /-- The cells. -/
  cell : Nat → Nat → Cell
  /-- The number of rows. -/
  cardinality : Nat

/-- The chunk that keeps its cells as a function. -/
instance cellChunks (standardVectorSize : Nat) : ChunkType standardVectorSize where
  Chunk := CellChunk
  Value := Cell
  varchar := .varchar
  bigint := .bigint
  setValue output colIdx index value :=
    { output with cell := fun col row => if col = colIdx ∧ row = index then value else output.cell col row }
  setCardinality output count := { output with cardinality := count }
  cell := CellChunk.cell
  cardinality := CellChunk.cardinality

instance (standardVectorSize : Nat) : LawfulChunkType standardVectorSize where
  cell_setValue := by
    intros
    rfl
  cell_setCardinality := by
    intros
    rfl
  cardinality_setCardinality := by
    intros
    rfl

end CurlHttpfs.Tcp
