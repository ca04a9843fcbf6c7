import ZcashSoloPool.Bytes.Endian

/-!
# CompactSize lengths

The variable-length integers of the block format.  A first byte below 253 is
the value itself; 253, 254 and 255 announce a little-endian payload of two,
four or eight bytes.  The writer chooses the shortest form.  The reader here
takes a prefix in any of its forms, so that the question whether a prefix is
the shortest one stays separate from the question what length it denotes.
-/

namespace ZcashSoloPool.Wire

open ZcashSoloPool.Bytes

/-- Bytes of payload announced by a first byte. -/
def payloadWidth (first : UInt8) : Nat :=
  if first.toNat < 253 then 0
  else if first.toNat = 253 then 2
  else if first.toNat = 254 then 4
  else 8

/-- The shortest form of a value below `2 ^ 64`. -/
def compactSize (value : Nat) : List UInt8 :=
  if value < 253 then [UInt8.ofNat value]
  else if value ≤ 0xffff then 0xfd :: toLE 2 value
  else if value ≤ 0xffffffff then 0xfe :: toLE 4 value
  else 0xff :: toLE 8 value

/-- Read a length in any of its forms, with the bytes that follow it. -/
def readCompactSize : List UInt8 → Option (Nat × List UInt8)
  | [] => none
  | first :: rest =>
      if first.toNat < 253 then some (first.toNat, rest)
      else if rest.length < payloadWidth first then none
      else some (ofLE (rest.take (payloadWidth first)), rest.drop (payloadWidth first))

/-- Read a CompactSize length and that many bytes. -/
def readBytes (bytes : List UInt8) : Option (List UInt8 × List UInt8) := do
  let (length, rest) ← readCompactSize bytes
  if rest.length < length then none else some (rest.take length, rest.drop length)

theorem readCompactSize_small {first : UInt8} (small : first.toNat < 253) (rest : List UInt8) :
    readCompactSize (first :: rest) = some (first.toNat, rest) := by
  rw [readCompactSize, if_pos small]

/-- A marker and a payload of the announced width are read together. -/
theorem readCompactSize_payload {first : UInt8} (marker : ¬first.toNat < 253)
    {payload : List UInt8} (width : payload.length = payloadWidth first) (rest : List UInt8) :
    readCompactSize (first :: (payload ++ rest)) = some (ofLE payload, rest) := by
  have long : ¬(payload ++ rest).length < payloadWidth first := by
    rw [List.length_append]
    omega
  rw [readCompactSize, if_neg marker, if_neg long, ← width, List.take_left, List.drop_left]

/-- What was written is read back, whatever follows. -/
theorem readCompactSize_compactSize {value : Nat} (bound : value < 2 ^ 64) (rest : List UInt8) :
    readCompactSize (compactSize value ++ rest) = some (value, rest) := by
  unfold compactSize
  split
  · next small =>
      have byteValue : (UInt8.ofNat value).toNat = value := by
        rw [UInt8.toNat_ofNat']
        omega
      rw [List.singleton_append, readCompactSize_small (by rwa [byteValue]), byteValue]
  · split
    · rw [List.cons_append, readCompactSize_payload (by decide) (by rw [length_toLE]; rfl),
        ofLE_toLE, Nat.mod_eq_of_lt (by omega)]
    · split
      · rw [List.cons_append, readCompactSize_payload (by decide) (by rw [length_toLE]; rfl),
          ofLE_toLE, Nat.mod_eq_of_lt (by omega)]
      · rw [List.cons_append, readCompactSize_payload (by decide) (by rw [length_toLE]; rfl),
          ofLE_toLE, Nat.mod_eq_of_lt (by omega)]

/-- A prefix that was read is a first byte with its payload, and nothing of the
rest is lost. -/
theorem readCompactSize_eq_some {bytes rest : List UInt8} {value : Nat}
    (read : readCompactSize bytes = some (value, rest)) :
    ∃ first payload, bytes = first :: (payload ++ rest) ∧
      payload.length = payloadWidth first ∧
      value = if first.toNat < 253 then first.toNat else ofLE payload := by
  cases bytes with
  | nil => simp [readCompactSize] at read
  | cons first tail =>
      rw [readCompactSize] at read
      split at read
      · next small =>
          obtain ⟨rfl, rfl⟩ := Prod.mk.inj (Option.some.inj read)
          exact ⟨first, [], rfl, by simp [payloadWidth, small], by simp [small]⟩
      · next marker =>
          split at read
          · contradiction
          · next long =>
              obtain ⟨rfl, rfl⟩ := Prod.mk.inj (Option.some.inj read)
              refine ⟨first, tail.take (payloadWidth first), ?_, ?_, by simp [marker]⟩
              · rw [List.take_append_drop]
              · rw [List.length_take]
                omega

/-- The prefix of a read length can be followed by anything. -/
theorem readCompactSize_append {bytes rest : List UInt8} {value : Nat}
    (read : readCompactSize bytes = some (value, rest)) (more : List UInt8) :
    readCompactSize (bytes ++ more) = some (value, rest ++ more) := by
  obtain ⟨first, payload, rfl, width, rfl⟩ := readCompactSize_eq_some read
  rw [List.cons_append, List.append_assoc]
  split
  · next small =>
      have empty : payload = [] := by
        rw [payloadWidth, if_pos small] at width
        exact List.eq_nil_of_length_eq_zero width
      rw [empty, List.nil_append, readCompactSize_small small]
  · next marker => rw [readCompactSize_payload marker width]

theorem readCompactSize_rest_sublist {bytes rest : List UInt8} {value : Nat}
    (read : readCompactSize bytes = some (value, rest)) : rest <:+ bytes := by
  obtain ⟨first, payload, rfl, _, _⟩ := readCompactSize_eq_some read
  exact ⟨first :: payload, by simp⟩

end ZcashSoloPool.Wire
