import Synopsis.Text.Utf8

/-!
# Bytes below 128

Bytes below 128 are characters by themselves, and a file of such bytes without a carriage return is
read as they stand. The bytes of an array are listed from the first to the last one. Longer
sequences are left out.
-/

namespace Synopsis.Text

namespace Utf8

theorem toList_loop (bytes : ByteArray) (i : Nat) (taken : List UInt8) :
    ByteArray.toList.loop bytes i taken = taken.reverse ++ bytes.data.toList.drop i := by
  fun_induction ByteArray.toList.loop bytes i taken with
  | case1 i taken more ih =>
    have inside : i < bytes.data.toList.length := by simpa using more
    have next : bytes.get! i = bytes.data.toList[i] := by
      rw [ByteArray.get!, getElem!_pos bytes.data i more]
      simp
    rw [ih, List.reverse_cons, List.append_assoc, List.drop_eq_getElem_cons (i := i), next]
    rfl
  | case2 i taken done =>
    rw [List.drop_eq_nil_of_le (by simpa using Nat.not_lt.mp done), List.append_nil]

theorem toList_mk (bytes : List UInt8) : (ByteArray.mk bytes.toArray).toList = bytes := by
  rw [ByteArray.toList, toList_loop]
  simp

theorem decodeFrom_of_low {bytes : List UInt8} (low : ∀ b ∈ bytes, b.toNat < 0x80) (start : Nat) :
    decodeFrom start bytes = .ok (bytes.map fun b => Char.ofNat b.toNat) := by
  induction bytes generalizing start with
  | nil => rw [decodeFrom]; rfl
  | cons b rest ih =>
    have single : piece b rest = .char (Char.ofNat b.toNat) 0 := by
      rw [piece, if_pos (low b List.mem_cons_self)]
    rw [decodeFrom, single]
    simp only [List.drop_zero]
    rw [ih fun other hother => low other (List.mem_cons_of_mem b hother)]
    rfl

/-- Bytes below 128 are decoded one by one. -/
theorem decode_of_low {bytes : List UInt8} (low : ∀ b ∈ bytes, b.toNat < 0x80) :
    decode bytes = .ok (String.ofList (bytes.map fun b => Char.ofNat b.toNat)) := by
  rw [decode, decodeFrom_of_low low]
  rfl

end Utf8

theorem unifyNewlines_of_noReturn {cs : List Char} (h : '\r' ∉ cs) : unifyNewlines cs = cs := by
  fun_induction unifyNewlines cs with
  | case1 => rfl
  | case2 => exact absurd List.mem_cons_self h
  | case3 c rest _ ih =>
    rw [ih fun later => h (List.mem_cons_of_mem c later), if_neg]
    exact fun same => h (beq_iff_eq.mp same ▸ List.mem_cons_self)

/-- A file of bytes below 128 without a carriage return is read as it stands. -/
theorem ofFile_of_low {bytes : List UInt8} (low : ∀ b ∈ bytes, b.toNat < 0x80)
    (noReturn : '\r' ∉ bytes.map fun b => Char.ofNat b.toNat) :
    ofFile ⟨bytes.toArray⟩ = .ok (String.ofList (bytes.map fun b => Char.ofNat b.toNat)) := by
  rw [ofFile, Utf8.toList_mk, Utf8.decode_of_low low, Except.map, withNewlines,
    String.toList_ofList, unifyNewlines_of_noReturn noReturn]

end Synopsis.Text
