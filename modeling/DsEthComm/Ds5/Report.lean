import DsEthComm.Bytes

/-!
# DsEthComm.Ds5.Report

The DualSense input report: what `ds5_from_hid_report` accepts and what
`convert_to_trimmed` keeps of it.

Both structures are packed, so a value of `PS5DataFull` or `PS5Data` *is*
its bytes in field order; only the sizes of the fields matter to the two
functions, which copy with `memcpy`.
-/

namespace DsEthComm.Ds5

/-! ## The packed structures -/

/-- Field sizes of `PS5Data`: `hatValue`, `trigger`, `sequence_number`,
`btn`, `reserved`, `gyroX`, `gyroZ`, `gyroY`, `accX`, `accZ`, `accY`,
`sensor_timestamp`. -/
def ps5DataFields : List Nat := [4, 2, 1, 3, 5, 2, 2, 2, 2, 2, 2, 4]

/-- `PS5DataFull` has the fields of `PS5Data`, then `reserved2` and `xy`. -/
def ps5DataFullFields : List Nat := ps5DataFields ++ [1, 8]

/-- `sizeof(PS5Data)`. -/
def sizeofPS5Data : Nat := ps5DataFields.foldr Nat.add 0

/-- `sizeof(PS5DataFull)`. -/
def sizeofPS5DataFull : Nat := ps5DataFullFields.foldr Nat.add 0

@[simp] theorem sizeofPS5Data_eq : sizeofPS5Data = 31 := rfl

@[simp] theorem sizeofPS5DataFull_eq : sizeofPS5DataFull = 40 := rfl

/-! ## The report buffer -/

/-- What `_hid_report_callback` is called with: the driver's 64-byte report
buffer `report[i]` and the `uint16_t` length of the transfer. -/
structure HidReport where
  buf : List Byte
  len : Nat
  size_buf : buf.length = 64
  len_lt : len < 0x10000

/-- A report of the given first byte, filled with `b`, of full length. -/
def HidReport.filled (id b : Byte) : HidReport where
  buf := id :: List.replicate 63 b
  len := 64
  size_buf := by simp
  len_lt := by decide

/-- `ds5_from_hid_report`: `none` is `return false`, `some` the bytes that
`memcpy(out, buf + 1, sizeof(PS5DataFull))` stores.  Its caller passes the
addresses of two static arrays, so the `NULL` checks never fire. -/
def ds5FromHidReport (r : HidReport) : Option (List Byte) :=
  if r.len < 2 then none
  else if r.buf.getD 0 0 = 0x01#8 then
    if r.len < 1 + sizeofPS5DataFull then none
    else some ((r.buf.drop 1).take sizeofPS5DataFull)
  else none

/-- `convert_to_trimmed`: `memcpy(trimmed, full, sizeof(PS5Data))`. -/
def convertToTrimmed (full : List Byte) : List Byte := full.take sizeofPS5Data

/-- Bytes 1..31 of a report. -/
def HidReport.payload (r : HidReport) : List Byte := (r.buf.drop 1).take 31

/-- The callback rejects the report: too short for a `PS5DataFull`, or not
a USB input report. -/
def HidReport.Rejected (r : HidReport) : Prop := r.len < 41 ∨ r.buf.head? ≠ some 0x01#8

instance (r : HidReport) : Decidable r.Rejected :=
  inferInstanceAs (Decidable (_ ∨ _))

/-! ## Specification -/

theorem ds5FromHidReport_eq_none {r : HidReport} :
    ds5FromHidReport r = none ↔ r.Rejected := by
  obtain ⟨buf, len, hbuf, hlen⟩ := r
  cases buf with
  | nil => simp at hbuf
  | cons b bs =>
      simp only [ds5FromHidReport, HidReport.Rejected, sizeofPS5DataFull_eq,
        List.getD_cons_zero, List.head?_cons, ne_eq, Option.some.injEq]
      grind

theorem length_of_ds5FromHidReport {r : HidReport} {full : List Byte}
    (h : ds5FromHidReport r = some full) : full.length = 40 := by
  have hbuf := r.size_buf
  grind [ds5FromHidReport, sizeofPS5DataFull_eq]

/-- **An accepted report is published as its bytes 1..31.** -/
theorem convertToTrimmed_of_ds5FromHidReport {r : HidReport} {full : List Byte}
    (h : ds5FromHidReport r = some full) : convertToTrimmed full = r.payload := by
  have hfull : full = (r.buf.drop 1).take sizeofPS5DataFull := by
    grind [ds5FromHidReport]
  rw [hfull, convertToTrimmed, HidReport.payload, List.take_take]
  rfl

end DsEthComm.Ds5
