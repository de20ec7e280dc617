/-
This file treats records of a fixed size in a stream of bytes.

A format says how many bytes a record takes and how it is read back. A prefix of a stream
that is as long as some whole records is the stream of these records, so that whoever cuts
a stream by lengths alone cuts it between records; and a reader that takes one record's
bytes at a time reads the records of a stream, whatever is torn off at its end.
-/
import Mathlib.Data.List.Basic
import Mathlib.Tactic.Common

namespace Records

/-- Records of a fixed size, and how their bytes are read: the records that fit are read back. -/
structure Format (Record Byte : Type) where
  size : Nat
  bytes : Record → List Byte
  parse : List Byte → Option Record
  Fits : Record → Prop
  size_pos : 0 < size
  length_bytes : ∀ record, (bytes record).length = size
  parse_bytes : ∀ {record}, Fits record → parse (bytes record) = some record

variable {Record Byte : Type} (format : Format Record Byte)

/-- The bytes of some records. -/
def Format.stream (records : List Record) : List Byte := records.flatMap format.bytes

/-- What a reader makes of some bytes that takes those of one record at a time, until there are not
enough for another one. -/
def Format.readAll (bytes : List Byte) : List Record :=
  if bytes.length < format.size then []
  else
    (format.parse (bytes.take format.size)).toList ++ readAll (bytes.drop format.size)
termination_by bytes.length
decreasing_by
  have positive := format.size_pos
  rw [List.length_drop]
  omega

variable {format}

@[simp]
theorem Format.stream_nil : format.stream [] = [] := rfl

theorem Format.stream_cons (record : Record) (records : List Record) :
    format.stream (record :: records) = format.bytes record ++ format.stream records :=
  List.flatMap_cons

theorem Format.stream_append (first second : List Record) :
    format.stream (first ++ second) = format.stream first ++ format.stream second :=
  List.flatMap_append

theorem Format.length_stream (records : List Record) :
    (format.stream records).length = format.size * records.length := by
  induction records with
  | nil => rfl
  | cons record rest inductionHypothesis =>
    rw [Format.stream_cons, List.length_append, format.length_bytes, inductionHypothesis,
      List.length_cons, Nat.mul_succ, Nat.add_comm]

theorem Format.stream_eq_nil_iff {records : List Record} :
    format.stream records = [] ↔ records = [] := by
  refine ⟨fun empty => ?_, fun empty => by rw [empty, Format.stream_nil]⟩
  have length := congrArg List.length empty
  rw [Format.length_stream, List.length_nil] at length
  rcases Nat.mul_eq_zero.mp length with none | none
  · exact absurd none (Nat.ne_of_gt format.size_pos)
  · exact List.eq_nil_of_length_eq_zero none

/-- A prefix as long as some whole records. -/
theorem Format.take_stream (count : Nat) (records : List Record) :
    (format.stream records).take (format.size * count) = format.stream (records.take count) := by
  induction count generalizing records with
  | zero => rw [Nat.mul_zero, List.take_zero, List.take_zero, Format.stream_nil]
  | succ count inductionHypothesis =>
    cases records with
    | nil => rw [Format.stream_nil, List.take_nil, List.take_nil, Format.stream_nil]
    | cons record rest =>
      have length := format.length_bytes record
      rw [Format.stream_cons, List.take_succ_cons, Format.stream_cons, ← inductionHypothesis,
        List.take_append, length, Nat.mul_succ, Nat.add_sub_cancel,
        List.take_of_length_le (by rw [length]; exact Nat.le_add_left _ _)]

/-- What follows it. -/
theorem Format.drop_stream (count : Nat) (records : List Record) :
    (format.stream records).drop (format.size * count) = format.stream (records.drop count) := by
  have whole := List.take_append_drop (format.size * count) (format.stream records)
  have parts := congrArg format.stream (List.take_append_drop count records)
  rw [Format.stream_append, ← whole, Format.take_stream] at parts
  exact (List.append_cancel_left parts).symm

variable (format) in
/-- A prefix of any length is some whole records and less than one more. -/
theorem Format.take_stream_torn (length : Nat) (records : List Record) :
    ∃ torn, (format.stream records).take length =
      format.stream (records.take (length / format.size)) ++ torn ∧ torn.length < format.size := by
  refine ⟨((format.stream records).drop (format.size * (length / format.size))).take
    (length % format.size), ?_, ?_⟩
  · rw [← Format.take_stream, ← List.take_add, Nat.div_add_mod]
  · rw [List.length_take]
    exact Nat.lt_of_le_of_lt (Nat.min_le_left _ _) (Nat.mod_lt _ format.size_pos)

/-- Too few bytes for a record. -/
theorem Format.readAll_of_torn {torn : List Byte} (short : torn.length < format.size) :
    format.readAll torn = [] := by
  unfold Format.readAll
  exact if_pos short

theorem Format.readAll_cons {record : Record} (fits : format.Fits record) (rest : List Byte) :
    format.readAll (format.bytes record ++ rest) = record :: format.readAll rest := by
  have length := format.length_bytes record
  rw [Format.readAll, if_neg (by rw [List.length_append, length]; omega),
    List.take_left' length, List.drop_left' length, format.parse_bytes fits]
  rfl

/-- The reader reads the records of a stream and leaves what is torn off. -/
theorem Format.readAll_stream {records : List Record} (fits : ∀ record ∈ records, format.Fits record)
    {torn : List Byte} (short : torn.length < format.size) :
    format.readAll (format.stream records ++ torn) = records := by
  induction records with
  | nil => exact Format.readAll_of_torn short
  | cons record rest inductionHypothesis =>
    obtain ⟨first, others⟩ := List.forall_mem_cons.mp fits
    rw [Format.stream_cons, List.append_assoc, Format.readAll_cons first,
      inductionHypothesis others]

theorem Format.readAll_whole {records : List Record} (fits : ∀ record ∈ records, format.Fits record) :
    format.readAll (format.stream records) = records := by
  have short : ([] : List Byte).length < format.size := format.size_pos
  have read := Format.readAll_stream fits short
  rwa [List.append_nil] at read

/-- Of a stream that is cut off the reader reads the first records. -/
theorem Format.readAll_prefix {records : List Record} (fits : ∀ record ∈ records, format.Fits record)
    {bytes : List Byte} (cut : bytes <+: format.stream records) :
    format.readAll bytes <+: records := by
  obtain ⟨torn, whole, short⟩ := Format.take_stream_torn format bytes.length records
  have first (record : Record) (member : record ∈ records.take (bytes.length / format.size)) :
      format.Fits record := fits record (List.mem_of_mem_take member)
  rw [List.prefix_iff_eq_take.mp cut, whole, Format.readAll_stream first short]
  exact List.take_prefix _ _

/-- The same for several streams. -/
theorem Format.readAll_prefixes {files : List (List Byte)} {given : List (List Record)}
    (cut : List.Forall₂ (fun file records => file <+: format.stream records) files given)
    (fits : ∀ records ∈ given, ∀ record ∈ records, format.Fits record) :
    List.Forall₂ (fun read records => read <+: records) (files.map format.readAll) given := by
  induction cut with
  | nil => exact List.Forall₂.nil
  | cons first _ inductionHypothesis =>
    obtain ⟨fitsFirst, fitsRest⟩ := List.forall_mem_cons.mp fits
    exact List.Forall₂.cons (Format.readAll_prefix fitsFirst first) (inductionHypothesis fitsRest)

end Records
