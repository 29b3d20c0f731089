import SchemaForge.Halt
import SchemaForge.Wire.Codec
set_option autoImplicit false

/-!
# Streams of bytes

A source delivers its bytes in pieces, as its sender or the system has cut them. Behind the last
piece it is closed, or every read fails, or the reader waits. A sink takes bytes until it fails, and
from then on nothing more.

## Main definitions

* `SchemaForge.Wire.Source`, `SchemaForge.Wire.Sink` — the two ends of a stream.
* `SchemaForge.Wire.chop` — bytes in pieces of one size.
* `SchemaForge.Wire.gather` — the first bytes of the pieces, as many as are wanted.

## Main results

* `SchemaForge.Wire.gather_fst`, `SchemaForge.Wire.flatten_gather_snd` — how the bytes are cut into
  pieces does not matter.
-/

namespace SchemaForge.Wire

/-- A stream that cannot be used any more, with the text of the cause. -/
structure StreamFailure where
  text : String
  deriving DecidableEq, Repr, Inhabited

/-- What is found behind the last byte of a source. -/
inductive SourceEnd where
  /-- The sender has closed the stream. -/
  | closed
  /-- Every read fails. -/
  | failing (failure : StreamFailure)
  /-- Nothing has come yet. -/
  | open
  deriving DecidableEq, Repr, Inhabited

/-- The reading end of a stream: the bytes not read yet, in the pieces that one read delivers. -/
structure Source where
  pieces : List Bytes
  ending : SourceEnd
  deriving DecidableEq, Repr, Inhabited

/-- The bytes not read yet. -/
def Source.bytes (source : Source) : Bytes := source.pieces.flatten

/-- The bytes in pieces of the given size, of which the last one may be smaller. -/
def chop (size : Nat) (bytes : Bytes) : List Bytes :=
  if h : size = 0 ∨ bytes = [] then [bytes]
  else
    have : (bytes.drop size).length < bytes.length := by
      have := List.length_pos_iff.2 (not_or.1 h).2
      simp
      omega
    bytes.take size :: chop size (bytes.drop size)
termination_by bytes.length

/-- The first `wanted` bytes of the pieces, or all of them if there are fewer, and the pieces that
are left. A read delivers at most one piece, and is repeated while bytes are missing. -/
def gather : Nat → List Bytes → Bytes × List Bytes
  | 0, pieces => ([], pieces)
  | _ + 1, [] => ([], [])
  | wanted + 1, piece :: pieces =>
    if piece.length ≤ wanted + 1 then
      let (bytes, rest) := gather (wanted + 1 - piece.length) pieces
      (piece ++ bytes, rest)
    else (piece.take (wanted + 1), piece.drop (wanted + 1) :: pieces)

/-- What is gathered are the first bytes, however they are cut into pieces. -/
theorem gather_fst (wanted : Nat) (pieces : List Bytes) :
    (gather wanted pieces).1 = pieces.flatten.take wanted := by
  fun_induction gather wanted pieces with
  | case1 => simp
  | case2 => simp
  | case3 wanted piece pieces h bytes rest hg ih =>
    simp only [hg] at ih
    simp [ih, List.take_append, List.take_of_length_le h]
  | case4 wanted piece pieces h =>
    have : wanted + 1 - piece.length = 0 := by omega
    simp [List.take_append, this]

/-- What is left are the other bytes, however they are cut into pieces. -/
theorem flatten_gather_snd (wanted : Nat) (pieces : List Bytes) :
    (gather wanted pieces).2.flatten = pieces.flatten.drop wanted := by
  fun_induction gather wanted pieces with
  | case1 => simp
  | case2 => simp
  | case3 wanted piece pieces h bytes rest hg ih =>
    simp only [hg] at ih
    simp [ih, List.drop_append, List.drop_of_length_le h]
  | case4 wanted piece pieces h =>
    have : wanted + 1 - piece.length = 0 := by omega
    simp [List.drop_append, this]

/-- The writing end of a stream: the bytes written, and if there is a limit, how many more it takes
and how it fails behind them. -/
structure Sink where
  written : Bytes
  limit : Option (Nat × StreamFailure)
  deriving DecidableEq, Repr, Inhabited

namespace Sink

/-- A sink that takes everything. -/
def unlimited : Sink := ⟨[], none⟩

/-- Writes the bytes behind the others if there is room for all of them. Otherwise the sink takes
nothing any more. -/
def write (sink : Sink) (bytes : Bytes) : Except StreamFailure Unit × Sink :=
  match sink.limit with
  | none => (.ok (), { sink with written := sink.written ++ bytes })
  | some (room, failure) =>
    if bytes.length ≤ room then
      (.ok (), ⟨sink.written ++ bytes, some (room - bytes.length, failure)⟩)
    else (.error failure, { sink with limit := some (0, failure) })

end Sink

end SchemaForge.Wire
