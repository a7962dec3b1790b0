import Mathlib.Data.List.TakeWhile
import MyLite.Php.RowStream

namespace MyLite.Php

open MyLite.Api MyLite.Client MyLite.Lib MyLite.Prepared MyLite.Sql

/-!
# Integer columns in PHP

An integer of a row reaches a script through a text: the client library writes it in decimal into
the buffer of the column, `mylite_column_int64` or `mylite_column_uint64` has the C library read it,
and the extension makes a PHP integer of it, or a decimal string where that is too small.

* `strtoll`, `strtoull` — the C library: the longest decimal number at the head of a text, cut to
  the range of the type.
* `rendered zeros n` — the text of an integer, with any number of leading zeros.
* `phpMyliteColumnToZval` — the conversion of the native extension, beside that of the PDO driver.
* `denotes_of_integerColumn` — both keep every 64-bit integer.
-/

/-! ### The C library -/

/-- `isspace`. -/
def isCSpace (b : UInt8) : Bool := b == 0x20 || (0x09 ≤ b && b ≤ 0x0D)

/-- The longest decimal number at the head of a text, behind white space: whether it has a minus
    sign, and its digits' value. -/
def decimalAtHead (text : Text) : Bool × ℕ :=
  match text.dropWhile isCSpace with
  | 0x2D :: rest => (true, strtoul (rest.takeWhile isDigit))
  | 0x2B :: rest => (false, strtoul (rest.takeWhile isDigit))
  | rest => (false, strtoul (rest.takeWhile isDigit))

/-- `strtoll` in base ten: a number out of range becomes the nearest one in it. -/
def strtoll (text : Text) : ℤ :=
  match decimalAtHead text with
  | (true, n) => max (-2 ^ 63) (-(n : ℤ))
  | (false, n) => min (n : ℤ) (2 ^ 63 - 1)

/-- `strtoull` in base ten: a number that is too large becomes the largest one, and a minus sign
    negates modulo `2 ^ 64`. -/
def strtoull (text : Text) : ℕ :=
  match decimalAtHead text with
  | (negative, n) =>
    if 2 ^ 64 ≤ n then 2 ^ 64 - 1 else if negative then (2 ^ 64 - n) % 2 ^ 64 else n

/-- The number readers of the C library, over any reading of floating-point numbers. -/
def cLibrary (strtod : Text → UInt64) : Numbers := ⟨strtoll, strtoull, strtod⟩

/-! ### Integers as texts -/

variable (zeros : ℕ)

/-- The decimal text of an integer, with leading zeros. -/
def rendered (n : ℤ) : Text :=
  (if n < 0 then [0x2D] else []) ++ (List.replicate zeros 0x30 ++ decimal n.natAbs)

theorem isDigit_of_mem_decimal {n : ℕ} {b : UInt8} (h : b ∈ decimal n) : isDigit b = true := by
  unfold decimal at h
  split_ifs at h with hn
  · rw [List.mem_singleton.mp h]
    rfl
  · obtain ⟨d, hd, rfl⟩ := List.mem_map.mp h
    have hlt : d < 10 := Nat.digits_lt_base (by omega) (List.mem_reverse.mp hd)
    interval_cases d <;> rfl

theorem decimal_ne_nil (n : ℕ) : decimal n ≠ [] := by
  unfold decimal
  split_ifs with hn
  · exact List.cons_ne_nil _ _
  · simpa using Nat.digits_ne_nil_iff_ne_zero.mpr hn

/-- Leading zeros do not count. -/
theorem strtoul_zeros (digits : Text) :
    strtoul (List.replicate zeros 0x30 ++ digits) = strtoul digits := by
  induction zeros with
  | zero => rfl
  | succ zeros ih => exact ih

/-- The digits of a rendered integer, without the sign. -/
theorem digits_rendered (zeros n : ℕ) :
    List.replicate zeros 0x30 ++ decimal n ≠ [] ∧
      ∀ b ∈ List.replicate zeros 0x30 ++ decimal n, isDigit b = true := by
  refine ⟨fun h => decimal_ne_nil n (List.append_eq_nil_iff.mp h).2, fun b hb => ?_⟩
  rcases List.mem_append.mp hb with hzero | hdigit
  · rw [List.eq_of_mem_replicate hzero]
    rfl
  · exact isDigit_of_mem_decimal hdigit

variable {digits : Text}

theorem takeWhile_isDigit (h : ∀ b ∈ digits, isDigit b = true) :
    digits.takeWhile isDigit = digits := List.takeWhile_eq_self_iff.mpr h

theorem not_isCSpace_of_isDigit : ∀ b : UInt8, isDigit b = true →
    isCSpace b = false ∧ b ≠ 0x2D ∧ b ≠ 0x2B := by decide +kernel

theorem decimalAtHead_digits (hne : digits ≠ []) (h : ∀ b ∈ digits, isDigit b = true) :
    decimalAtHead digits = (false, strtoul digits) := by
  cases digits with
  | nil => exact absurd rfl hne
  | cons b rest =>
    obtain ⟨hspace, hminus, hplus⟩ := not_isCSpace_of_isDigit b (h b List.mem_cons_self)
    unfold decimalAtHead
    rw [List.dropWhile_cons_of_neg (by simp [hspace])]
    split
    next heq => exact absurd (List.cons.inj heq).1 hminus
    next heq => exact absurd (List.cons.inj heq).1 hplus
    next => rw [takeWhile_isDigit h]

theorem decimalAtHead_minus (h : ∀ b ∈ digits, isDigit b = true) :
    decimalAtHead (0x2D :: digits) = (true, strtoul digits) := by
  show (true, strtoul (digits.takeWhile isDigit)) = _
  rw [takeWhile_isDigit h]

/-- The whole of a rendered integer is read. -/
theorem decimalAtHead_rendered (n : ℤ) :
    decimalAtHead (rendered zeros n) = (decide (n < 0), n.natAbs) := by
  obtain ⟨hne, hdigits⟩ := digits_rendered zeros n.natAbs
  have hvalue : strtoul (List.replicate zeros 0x30 ++ decimal n.natAbs) = n.natAbs := by
    rw [strtoul_zeros, strtoul_decimal]
  unfold rendered
  by_cases hn : n < 0
  · rw [if_pos hn, List.singleton_append, decimalAtHead_minus hdigits, hvalue, decide_eq_true hn]
  · rw [if_neg hn, List.nil_append, decimalAtHead_digits hne hdigits, hvalue, decide_eq_false hn]

variable {n : ℤ}

/-- `strtoll` on the signed 64-bit integers. -/
theorem strtoll_rendered (hlo : -2 ^ 63 ≤ n) (hhi : n < 2 ^ 63) :
    strtoll (rendered zeros n) = n := by
  unfold strtoll
  rw [decimalAtHead_rendered]
  by_cases hn : n < 0
  · rw [decide_eq_true hn]
    show max (-2 ^ 63) (-(n.natAbs : ℤ)) = n
    omega
  · rw [decide_eq_false hn]
    show min (n.natAbs : ℤ) (2 ^ 63 - 1) = n
    omega

/-- `strtoull` on the unsigned 64-bit integers. -/
theorem strtoull_rendered (hlo : 0 ≤ n) (hhi : n < 2 ^ 64) :
    strtoull (rendered zeros n) = n.toNat := by
  unfold strtoull
  rw [decimalAtHead_rendered, decide_eq_false (by omega)]
  simp only [Bool.false_eq_true, if_false]
  rw [if_neg (by omega)]
  omega

/-- The text of an integer has no zero byte, so the C library sees all of it. -/
theorem takeWhile_rendered (n : ℤ) : (rendered zeros n).takeWhile (· != 0) = rendered zeros n := by
  refine List.takeWhile_eq_self_iff.mpr fun b hb => ?_
  have hzero : ∀ b : UInt8, isDigit b = true → (b != 0) = true := by decide +kernel
  rcases List.mem_append.mp hb with hsign | hdigit
  · split_ifs at hsign
    · rw [List.mem_singleton.mp hsign]
      rfl
    · cases hsign
  · exact hzero b ((digits_rendered zeros n.natAbs).2 b hdigit)

/-! ### The conversions -/

/-- `php_mylite_column_to_zval`. -/
def phpMyliteColumnToZval (numbers : Numbers) (l : Labelled) (column : ℕ) : ColumnZval :=
  match l.columnType column with
  | .null => .null
  | .int64 => .long (l.value.columnNumber numbers.strtoll column)
  | .uint64 =>
    let uintValue := l.value.columnNumber numbers.strtoull column
    if uintValue ≤ zendLongMax then .long uintValue else .string (decimal uintValue)
  | .double => .double (l.value.columnNumber numbers.strtod column)
  | .text | .blob =>
    let byteCount := l.value.columnBytes column
    match l.value.columnBlob column with
    | none => .null
    | some text => .string (text.take byteCount)

theorem phpMyliteColumnToZval_eq_pdo (numbers : Numbers) (l : Labelled) (column : ℕ) :
    phpMyliteColumnToZval numbers l column = pdoMyliteColumnToZval numbers l column := rfl

/-- The integer a PHP value denotes: a PHP integer, or a string of decimal digits with a sign. -/
def ColumnZval.denotes : ColumnZval → Option ℤ
  | .long value => some value
  | .string (0x2D :: digits) =>
    if digits ≠ [] ∧ digits.all isDigit then some (-(strtoul digits : ℤ)) else none
  | .string digits => if digits ≠ [] ∧ digits.all isDigit then some (strtoul digits) else none
  | .null | .double _ => none

theorem denotes_decimal (n : ℕ) : (ColumnZval.string (decimal n)).denotes = some (n : ℤ) := by
  have hdigits : decimal n ≠ [] ∧ (decimal n).all isDigit = true :=
    ⟨decimal_ne_nil n, List.all_eq_true.mpr fun b hb => isDigit_of_mem_decimal hb⟩
  unfold ColumnZval.denotes
  split
  next heq => cases heq
  next digits heq =>
    -- a minus sign is no digit
    have hhead : isDigit 0x2D = true :=
      isDigit_of_mem_decimal (n := n) (by rw [ColumnZval.string.inj heq]; exact List.mem_cons_self)
    cases hhead
  next heq =>
    obtain rfl := ColumnZval.string.inj heq
    rw [if_pos hdigits, strtoul_decimal]
  next heq => cases heq
  next heq => cases heq

/-! ### Every integer of a column -/

/-- The field of an integer column. -/
def isIntegerField (f : Field) : Bool :=
  f.type ∈ [FieldType.tiny, .short, .long, .int24, .longlong, .year]

/-- The 64-bit integers of the field's sign. -/
def InRange (f : Field) (n : ℤ) : Prop :=
  if f.flags &&& unsignedFlag ≠ 0 then 0 ≤ n ∧ n < 2 ^ 64 else -2 ^ 63 ≤ n ∧ n < 2 ^ 63

instance (f : Field) (n : ℤ) : Decidable (InRange f n) :=
  inferInstanceAs (Decidable
    (if f.flags &&& unsignedFlag ≠ 0 then 0 ≤ n ∧ n < 2 ^ 64 else -2 ^ 63 ≤ n ∧ n < 2 ^ 63))

variable {f : Field}

theorem valueType_of_isIntegerField (h : isIntegerField f = true) :
    f.valueType = if f.flags &&& unsignedFlag ≠ 0 then .uint64 else .int64 := by
  unfold isIntegerField at h
  unfold Field.valueType
  cases htype : f.type <;> simp [htype] at h ⊢

/-- What a script sees of an integer, whatever the sign of its column. -/
theorem zvalOf_rendered (strtod : Text → UInt64) (hf : isIntegerField f = true) (hn : InRange f n)
    (zeros : ℕ) : (zvalOf (cLibrary strtod) f.valueType (rendered zeros n)).denotes = some n := by
  rw [valueType_of_isIntegerField hf]
  unfold InRange at hn
  split_ifs at hn ⊢ with hsign
  · -- unsigned: behind the largest PHP integer the digits are kept
    show (if strtoull ((rendered zeros n).takeWhile (· != 0)) ≤ zendLongMax then
        ColumnZval.long (strtoull ((rendered zeros n).takeWhile (· != 0)))
      else .string (decimal (strtoull ((rendered zeros n).takeWhile (· != 0))))).denotes = some n
    rw [takeWhile_rendered, strtoull_rendered zeros hn.1 hn.2]
    split_ifs
    · exact congrArg some (Int.toNat_of_nonneg hn.1)
    · rw [denotes_decimal, Int.toNat_of_nonneg hn.1]
  · show some (strtoll ((rendered zeros n).takeWhile (· != 0))) = some n
    rw [takeWhile_rendered, strtoll_rendered zeros hn.1 hn.2]

/-- **Integer columns.** Behind every step that returned a row, in any run of calls on a statement,
    both conversions make of an integer column a PHP value that denotes the integer in the row. -/
theorem denotes_of_integerColumn (strtod : Text → UInt64) {conn : Connection Row}
    {stmt : Stmt} {header : List Field} {calls : List MetadataCall} {d : Described}
    (hrun : Described.Calls ⟨.prepared conn stmt header, none⟩ calls d) {row : Row}
    (hlive : d.live = some row) {column : ℕ} {field : Field}
    (hlabel : d.handle.labels[column]? = some field) (hinteger : isIntegerField field = true)
    {n : ℤ} (hn : InRange field n) {zeros : ℕ} (hvalue : row column = some (rendered zeros n)) :
    (phpMyliteColumnToZval (cLibrary strtod) d.handle column).denotes = some n ∧
      (pdoMyliteColumnToZval (cLibrary strtod) d.handle column).denotes = some n := by
  have hgood : Described.Good d :=
    hrun.invariant Described.Good (Described.good_prepared conn stmt header)
      fun {d c d'} hd hstep => hstep.2 ▸ hd.call hstep.1
  obtain ⟨hrow, hshows⟩ := hgood.faithful.shows row hlive
  obtain ⟨-, -, hlength⟩ := hgood.consistent.copied (hgood.faithful.ready.executed hrow).2
  have hcolumn : column < d.handle.value.columnCount :=
    hlength ▸ (List.getElem?_eq_some_iff.mp hlabel).1
  have hpdo : (pdoMyliteColumnToZval (cLibrary strtod) d.handle column).denotes = some n := by
    rw [pdoMyliteColumnToZval_eq (cLibrary strtod) hrow hshows hcolumn hlabel, hvalue]
    exact zvalOf_rendered strtod hinteger hn zeros
  exact ⟨phpMyliteColumnToZval_eq_pdo (cLibrary strtod) d.handle column ▸ hpdo, hpdo⟩

/-- The field of a `BIGINT UNSIGNED` column. -/
def unsignedField : Field := { name := ascii "a", type := .longlong, flags := unsignedFlag }

/-- A `SELECT` of such a column, behind the step that returns a row. -/
def selectedUnsigned (row : Row) : Described :=
  Described.call
    ⟨.prepared {} { state := .prepareDone, hasFields := true } [unsignedField], none⟩
    (.step {} { answers := [.rows [row] false] } { header := [unsignedField] })

theorem calls_selectedUnsigned (row : Row) :
    Described.Calls
      ⟨.prepared {} { state := .prepareDone, hasFields := true } [unsignedField], none⟩
      [.step {} { answers := [.rows [row] false] } { header := [unsignedField] }]
      (selectedUnsigned row) :=
  .cons ⟨fun _ _ => rfl, rfl⟩ (.nil _)

/-- The largest unsigned integer, with two leading zeros. -/
theorem denotes_of_largestUnsigned :
    (phpMyliteColumnToZval (cLibrary fun _ => 0)
        (selectedUnsigned fun _ => some (rendered 2 (2 ^ 64 - 1))).handle 0).denotes
      = some (2 ^ 64 - 1) ∧
    (pdoMyliteColumnToZval (cLibrary fun _ => 0)
        (selectedUnsigned fun _ => some (rendered 2 (2 ^ 64 - 1))).handle 0).denotes
      = some (2 ^ 64 - 1) :=
  denotes_of_integerColumn (fun _ => 0)
    (calls_selectedUnsigned fun _ => some (rendered 2 (2 ^ 64 - 1)))
    rfl rfl rfl (by decide) rfl

end MyLite.Php
