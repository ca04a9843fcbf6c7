import Mathlib.Data.List.Basic

/-!
# UTF-8 with replacement characters

Bytes are decoded one after the other.  A byte that does not continue an
unfinished sequence turns the sequence into a replacement character and is read
again as a first byte; a sequence that is unfinished at the end becomes a
replacement character, too.  Encoded text decodes to itself.
-/

namespace ZcashSoloPool.Bytes

/-! ## Decoding -/

/-- The character that stands for bytes that are no UTF-8. -/
def replacement : Char :=
  '\ufffd'

/-- An unfinished sequence: how many bytes it needs, the bits of those it has,
and the bounds of the next one. -/
structure Unfinished where
  needed : Nat
  bits : Nat
  lower : Nat
  upper : Nat
  deriving DecidableEq, Repr

/-- Read a first byte. -/
def decodeFirst (byte : Nat) : List Char × Option Unfinished :=
  if byte ≤ 0x7f then ([Char.ofNat byte], none)
  else if 0xc2 ≤ byte ∧ byte ≤ 0xdf then ([], some ⟨1, byte - 0xc0, 0x80, 0xbf⟩)
  else if 0xe0 ≤ byte ∧ byte ≤ 0xef then
    -- Overlong forms and surrogates are cut off by the bounds.
    ([], some ⟨2, byte - 0xe0, if byte = 0xe0 then 0xa0 else 0x80,
      if byte = 0xed then 0x9f else 0xbf⟩)
  else if 0xf0 ≤ byte ∧ byte ≤ 0xf4 then
    ([], some ⟨3, byte - 0xf0, if byte = 0xf0 then 0x90 else 0x80,
      if byte = 0xf4 then 0x8f else 0xbf⟩)
  else ([replacement], none)

/-- Read a byte. -/
def decodeByte : Option Unfinished → Nat → List Char × Option Unfinished
  | none, byte => decodeFirst byte
  | some sequence, byte =>
      if sequence.lower ≤ byte ∧ byte ≤ sequence.upper then
        let bits := sequence.bits * 64 + (byte - 0x80)
        if sequence.needed = 1 then ([Char.ofNat bits], none)
        else ([], some ⟨sequence.needed - 1, bits, 0x80, 0xbf⟩)
      else (replacement :: (decodeFirst byte).1, (decodeFirst byte).2)

/-- Read bytes after an unfinished sequence. -/
def decodeFrom : Option Unfinished → List UInt8 → List Char
  | none, [] => []
  | some _, [] => [replacement]
  | sequence, byte :: rest =>
      (decodeByte sequence byte.toNat).1 ++ decodeFrom (decodeByte sequence byte.toNat).2 rest

/-- Decode bytes. -/
def decodeUtf8 (bytes : List UInt8) : List Char :=
  decodeFrom none bytes

/-! ## Encoded text -/

/-- Encode text. -/
def encodeUtf8 (text : List Char) : List UInt8 :=
  text.flatMap String.utf8EncodeChar

/-- The bytes are UTF-8. -/
def IsUtf8 (bytes : List UInt8) : Prop :=
  ∃ text, bytes = encodeUtf8 text

theorem encodeUtf8_append (front back : List Char) :
    encodeUtf8 (front ++ back) = encodeUtf8 front ++ encodeUtf8 back :=
  List.flatMap_append

theorem decodeFrom_cons (sequence : Option Unfinished) (byte : UInt8) (rest : List UInt8) :
    decodeFrom sequence (byte :: rest) = (decodeByte sequence byte.toNat).1 ++
      decodeFrom (decodeByte sequence byte.toNat).2 rest := by
  cases sequence <;> rfl

theorem toNat_byte {n : Nat} (small : n < 256) : (UInt8.ofNat n).toNat = n :=
  UInt8.toNat_ofNat_of_lt' small

/-- A byte within the bounds continues the sequence. -/
theorem decodeFrom_continue {needed bits lower upper byte : Nat} (rest : List UInt8)
    (small : byte < 256) (low : lower ≤ byte) (high : byte ≤ upper) :
    decodeFrom (some ⟨needed + 2, bits, lower, upper⟩) (UInt8.ofNat byte :: rest) =
      decodeFrom (some ⟨needed + 1, bits * 64 + (byte - 0x80), 0x80, 0xbf⟩) rest := by
  rw [decodeFrom_cons, toNat_byte small, decodeByte, if_pos ⟨low, high⟩]
  dsimp only
  rw [if_neg (by omega)]
  rfl

/-- The last byte of a sequence completes its character. -/
theorem decodeFrom_complete {bits lower upper byte : Nat} (rest : List UInt8)
    (small : byte < 256) (low : lower ≤ byte) (high : byte ≤ upper) :
    decodeFrom (some ⟨1, bits, lower, upper⟩) (UInt8.ofNat byte :: rest) =
      Char.ofNat (bits * 64 + (byte - 0x80)) :: decodeFrom none rest := by
  rw [decodeFrom_cons, toNat_byte small, decodeByte, if_pos ⟨low, high⟩]
  rfl

/-- A first byte of a sequence of two bytes. -/
theorem decodeFrom_two {high : Nat} (rest : List UInt8) (low : 2 ≤ high) (bound : high < 32) :
    decodeFrom none (UInt8.ofNat (high + 0xc0) :: rest) =
      decodeFrom (some ⟨1, high, 0x80, 0xbf⟩) rest := by
  rw [decodeFrom_cons, toNat_byte (by omega), decodeByte, decodeFirst,
    if_neg (by omega), if_pos (by omega), Nat.add_sub_cancel]
  rfl

/-- A first byte of a sequence of three bytes. -/
theorem decodeFrom_three {high : Nat} (rest : List UInt8) (bound : high < 16) :
    decodeFrom none (UInt8.ofNat (high + 0xe0) :: rest) =
      decodeFrom (some ⟨2, high, if high = 0 then 0xa0 else 0x80,
        if high = 13 then 0x9f else 0xbf⟩) rest := by
  have lowest : high + 0xe0 = 0xe0 ↔ high = 0 := by omega
  have surrogates : high + 0xe0 = 0xed ↔ high = 13 := by omega
  rw [decodeFrom_cons, toNat_byte (by omega), decodeByte, decodeFirst,
    if_neg (by omega), if_neg (by omega), if_pos (by omega), Nat.add_sub_cancel]
  simp only [lowest, surrogates, List.nil_append]

/-- A first byte of a sequence of four bytes. -/
theorem decodeFrom_four {high : Nat} (rest : List UInt8) (bound : high < 5) :
    decodeFrom none (UInt8.ofNat (high + 0xf0) :: rest) =
      decodeFrom (some ⟨3, high, if high = 0 then 0x90 else 0x80,
        if high = 4 then 0x8f else 0xbf⟩) rest := by
  have lowest : high + 0xf0 = 0xf0 ↔ high = 0 := by omega
  have highest : high + 0xf0 = 0xf4 ↔ high = 4 := by omega
  rw [decodeFrom_cons, toNat_byte (by omega), decodeByte, decodeFirst,
    if_neg (by omega), if_neg (by omega), if_neg (by omega), if_pos (by omega), Nat.add_sub_cancel]
  simp only [lowest, highest, List.nil_append]

/-- A character decodes to itself, whatever follows it. -/
theorem decodeFrom_utf8EncodeChar (c : Char) (rest : List UInt8) :
    decodeFrom none (String.utf8EncodeChar c ++ rest) = c :: decodeFrom none rest := by
  have valid : c.val.toNat < 0xd800 ∨ 0xdfff < c.val.toNat ∧ c.val.toNat < 0x110000 := c.valid
  have back : Char.ofNat c.val.toNat = c := Char.ofNat_toNat c
  unfold String.utf8EncodeChar
  dsimp only
  generalize c.val.toNat = v at valid back
  split
  · next ascii =>
      rw [List.singleton_append, decodeFrom_cons, toNat_byte (by omega), decodeByte, decodeFirst,
        if_pos ascii, back]
      rfl
  · split
    · have whole : v / 64 % 32 * 64 + (v % 64 + 0x80 - 0x80) = v := by omega
      rw [List.cons_append, decodeFrom_two, List.singleton_append, decodeFrom_complete, whole, back]
      all_goals omega
    · split
      · have whole : (v / 4096 % 16 * 64 + (v / 64 % 64 + 0x80 - 0x80)) * 64 +
            (v % 64 + 0x80 - 0x80) = v := by omega
        rw [List.cons_append, decodeFrom_three, List.cons_append, decodeFrom_continue,
          List.singleton_append, decodeFrom_complete, whole, back]
        all_goals (repeat' split) <;> omega
      · have whole : ((v / 262144 % 8 * 64 + (v / 4096 % 64 + 0x80 - 0x80)) * 64 +
            (v / 64 % 64 + 0x80 - 0x80)) * 64 + (v % 64 + 0x80 - 0x80) = v := by omega
        rw [List.cons_append, decodeFrom_four, List.cons_append, decodeFrom_continue,
          List.cons_append, decodeFrom_continue, List.singleton_append, decodeFrom_complete, whole,
          back]
        all_goals (repeat' split) <;> omega

/-- Encoded text decodes to itself, whatever follows it. -/
theorem decodeUtf8_encodeUtf8_append (text : List Char) (rest : List UInt8) :
    decodeUtf8 (encodeUtf8 text ++ rest) = text ++ decodeUtf8 rest := by
  induction text with
  | nil => rfl
  | cons c others ih =>
      change decodeFrom none (String.utf8EncodeChar c ++ encodeUtf8 others ++ rest) = _
      rw [List.append_assoc, decodeFrom_utf8EncodeChar]
      exact congrArg (c :: ·) ih

@[simp]
theorem decodeUtf8_encodeUtf8 (text : List Char) : decodeUtf8 (encodeUtf8 text) = text := by
  have alone := decodeUtf8_encodeUtf8_append text []
  rw [List.append_nil] at alone
  exact alone.trans (List.append_nil text)

/-- Of two encoded texts at the front of a stream one text starts the other. -/
theorem prefix_or_prefix_of_encodeUtf8 {first second : List Char} {stream : List UInt8}
    (firstFront : encodeUtf8 first <+: stream) (secondFront : encodeUtf8 second <+: stream) :
    first <+: second ∨ second <+: first := by
  have decoded : ∀ {shorter longer : List Char}, encodeUtf8 shorter <+: encodeUtf8 longer →
      shorter <+: longer := by
    rintro shorter longer ⟨more, split⟩
    refine ⟨decodeUtf8 more, ?_⟩
    rw [← decodeUtf8_encodeUtf8_append, split, decodeUtf8_encodeUtf8]
  exact (List.prefix_or_prefix_of_prefix firstFront secondFront).imp decoded decoded

/-! ## Pieces -/

/-- Pieces that are UTF-8 decode to the text of the whole. -/
theorem flatMap_decodeUtf8 {chunks : List (List UInt8)} (whole : ∀ chunk ∈ chunks, IsUtf8 chunk) :
    chunks.flatMap decodeUtf8 = decodeUtf8 chunks.flatten := by
  have text : encodeUtf8 (chunks.flatMap decodeUtf8) = chunks.flatten := by
    induction chunks with
    | nil => rfl
    | cons chunk rest ih =>
        obtain ⟨text, rfl⟩ := whole chunk List.mem_cons_self
        rw [List.flatMap_cons, encodeUtf8_append, decodeUtf8_encodeUtf8, List.flatten_cons,
          ih fun later member => whole later (List.mem_cons_of_mem _ member)]
  rw [← text, decodeUtf8_encodeUtf8]

/-- The byte stands within a sequence. -/
def isContinuation (byte : UInt8) : Bool :=
  decide (0x80 ≤ byte.toNat ∧ byte.toNat ≤ 0xbf)

/-- The number of bytes that begin a character. -/
def starts (bytes : List UInt8) : Nat :=
  bytes.countP fun byte => !isContinuation byte

/-- The next byte of the sequence must stand within one. -/
def Bounded (sequence : Option Unfinished) : Prop :=
  ∀ unfinished ∈ sequence, 0x80 ≤ unfinished.lower ∧ unfinished.upper ≤ 0xbf

/-- Every first byte makes a character or begins one. -/
theorem decodeFirst_spec (byte : Nat) :
    (decodeFirst byte).1.length + (decodeFirst byte).2.toList.length = 1 ∧
      Bounded (decodeFirst byte).2 := by
  unfold decodeFirst
  split_ifs <;> simp [Bounded]

/-- Every character that starts is decoded, and so is an unfinished one. -/
theorem starts_le_length_decodeFrom {sequence : Option Unfinished} (bounded : Bounded sequence)
    (bytes : List UInt8) :
    starts bytes + sequence.toList.length ≤ (decodeFrom sequence bytes).length := by
  induction bytes generalizing sequence with
  | nil => cases sequence <;> exact Nat.le_refl _
  | cons byte rest ih =>
      obtain ⟨first, firstBounded⟩ := decodeFirst_spec byte.toNat
      have later := ih firstBounded
      have one : starts (byte :: rest) ≤ starts rest + 1 := by
        rw [starts, starts, List.countP_cons]
        split <;> omega
      rw [decodeFrom_cons, List.length_append]
      cases sequence with
      | none =>
          rw [decodeByte]
          simp only [Option.toList_none, List.length_nil]
          omega
      | some unfinished =>
          have within := bounded unfinished rfl
          rw [decodeByte]
          simp only [Option.toList_some, List.length_singleton]
          split
          · next inBounds =>
              have continues : isContinuation byte = true := decide_eq_true (by omega)
              have unchanged : starts (byte :: rest) = starts rest := by
                rw [starts, starts, List.countP_cons, continues]
                rfl
              split
              · have done : Bounded none := fun _ impossible => nomatch impossible
                have more := ih done
                simp only [Option.toList_none, List.length_nil] at more
                simp only [List.length_singleton]
                omega
              · have open' : Bounded (some ⟨unfinished.needed - 1,
                    unfinished.bits * 64 + (byte.toNat - 0x80), 0x80, 0xbf⟩) := by
                  simp [Bounded]
                have more := ih open'
                simp only [Option.toList_some, List.length_singleton] at more
                simp only [List.length_nil]
                omega
          · simp only [List.length_cons]
            omega

theorem starts_le_length_decodeUtf8 (bytes : List UInt8) :
    starts bytes ≤ (decodeUtf8 bytes).length := by
  have fresh : Bounded none := fun _ impossible => nomatch impossible
  exact starts_le_length_decodeFrom fresh bytes

/-- A byte that stands within a sequence makes a character of its own at the
front. -/
theorem starts_lt_length_decodeUtf8 {byte : UInt8} (continues : isContinuation byte = true)
    (rest : List UInt8) : starts (byte :: rest) < (decodeUtf8 (byte :: rest)).length := by
  obtain ⟨first, bounded⟩ := decodeFirst_spec byte.toNat
  have later := starts_le_length_decodeFrom bounded rest
  have unchanged : starts (byte :: rest) = starts rest := by
    rw [starts, starts, List.countP_cons, continues]
    rfl
  rw [decodeUtf8, decodeFrom_cons, decodeByte, List.length_append]
  omega

/-- A character is one byte that begins it and bytes that continue it. -/
theorem utf8EncodeChar_eq_cons (c : Char) : ∃ lead tail, String.utf8EncodeChar c = lead :: tail ∧
    isContinuation lead = false ∧ ∀ byte ∈ tail, isContinuation byte = true := by
  have lead : ∀ n, n < 256 → n < 0x80 ∨ 0xbf < n → isContinuation (UInt8.ofNat n) = false := by
    intro n small outside
    rw [isContinuation, toNat_byte small]
    exact decide_eq_false (by omega)
  have tail : ∀ n, isContinuation (UInt8.ofNat (n % 64 + 0x80)) = true := by
    intro n
    rw [isContinuation, toNat_byte (by omega)]
    exact decide_eq_true (by omega)
  have valid : c.val.toNat < 0x110000 := by
    rcases c.valid with below | above
    · exact Nat.lt_trans below (by decide)
    · exact above.2
  unfold String.utf8EncodeChar
  dsimp only
  generalize c.val.toNat = v at valid
  split
  · exact ⟨_, _, rfl, lead _ (by omega) (by omega), List.forall_mem_nil _⟩
  · split
    · exact ⟨_, _, rfl, lead _ (by omega) (by omega), List.forall_mem_singleton.mpr (tail _)⟩
    · split
      · exact ⟨_, _, rfl, lead _ (by omega) (by omega),
          List.forall_mem_cons.mpr ⟨tail _, List.forall_mem_singleton.mpr (tail _)⟩⟩
      · exact ⟨_, _, rfl, lead _ (by omega) (by omega), List.forall_mem_cons.mpr ⟨tail _,
          List.forall_mem_cons.mpr ⟨tail _, List.forall_mem_singleton.mpr (tail _)⟩⟩⟩

theorem starts_append (front back : List UInt8) :
    starts (front ++ back) = starts front + starts back :=
  List.countP_append

theorem starts_of_continuation {bytes : List UInt8}
    (continues : ∀ byte ∈ bytes, isContinuation byte = true) : starts bytes = 0 := by
  rw [starts, List.countP_eq_zero]
  intro byte member
  rw [continues byte member]
  decide

theorem starts_encodeUtf8 (text : List Char) : starts (encodeUtf8 text) = text.length := by
  induction text with
  | nil => rfl
  | cons c rest ih =>
      obtain ⟨lead, tail, encoded, leads, continues⟩ := utf8EncodeChar_eq_cons c
      have one : starts (String.utf8EncodeChar c) = 1 := by
        have none := starts_of_continuation continues
        rw [encoded, starts, List.countP_cons, leads]
        rw [starts] at none
        rw [none]
        rfl
      change starts (String.utf8EncodeChar c ++ encodeUtf8 rest) = _
      rw [starts_append, one, ih, List.length_cons, Nat.add_comm]

/-- Pieces decode to a character for every one that starts in them. -/
theorem starts_le_length_flatMap (chunks : List (List UInt8)) :
    starts chunks.flatten ≤ (chunks.flatMap decodeUtf8).length := by
  induction chunks with
  | nil => exact Nat.le_refl _
  | cons chunk rest ih =>
      have here := starts_le_length_decodeUtf8 chunk
      rw [List.flatten_cons, starts_append, List.flatMap_cons, List.length_append]
      omega

/-- Pieces that do not begin with a character decode to more. -/
theorem starts_lt_length_flatMap {chunks : List (List UInt8)} {byte : UInt8} {rest : List UInt8}
    (flat : chunks.flatten = byte :: rest) (continues : isContinuation byte = true) :
    starts chunks.flatten < (chunks.flatMap decodeUtf8).length := by
  induction chunks with
  | nil => contradiction
  | cons chunk others ih =>
      have later := starts_le_length_flatMap others
      rw [List.flatten_cons] at flat
      rw [List.flatten_cons, starts_append, List.flatMap_cons, List.length_append]
      cases chunk with
      | nil =>
          have more := ih flat
          have nothing : starts [] = 0 := rfl
          omega
      | cons first more =>
          cases flat
          have here := starts_lt_length_decodeUtf8 continues more
          omega

/-- Encoded text is cut between two characters, or in a character. -/
theorem encodeUtf8_eq_append {text : List Char} {front back : List UInt8}
    (cut : encodeUtf8 text = front ++ back) :
    (∃ first second, text = first ++ second ∧ front = encodeUtf8 first ∧
        back = encodeUtf8 second) ∨
      ∃ first c second head tail, text = first ++ c :: second ∧
        String.utf8EncodeChar c = head ++ tail ∧ head ≠ [] ∧ tail ≠ [] ∧
        front = encodeUtf8 first ++ head ∧ back = tail ++ encodeUtf8 second := by
  induction text generalizing front with
  | nil =>
      obtain ⟨rfl, rfl⟩ := List.append_eq_nil_iff.mp cut.symm
      exact Or.inl ⟨[], [], rfl, rfl, rfl⟩
  | cons c rest ih =>
      change String.utf8EncodeChar c ++ encodeUtf8 rest = front ++ back at cut
      rcases List.append_eq_append_iff.mp cut with ⟨more, rfl, later⟩ | ⟨tail, split, rfl⟩
      · rcases ih later with ⟨first, second, rfl, rfl, rfl⟩ | inside
        · exact Or.inl ⟨c :: first, second, rfl, rfl, rfl⟩
        · rcases inside with ⟨first, d, second, head, tail, rfl, split, begun, left, rfl, rfl⟩
          refine Or.inr ⟨c :: first, d, second, head, tail, rfl, split, begun, left, ?_, rfl⟩
          exact (List.append_assoc _ _ _).symm
      · by_cases nothing : front = []
        · subst nothing
          refine Or.inl ⟨[], c :: rest, rfl, rfl, ?_⟩
          rw [← List.nil_append tail, ← split]
          rfl
        · by_cases whole : tail = []
          · subst whole
            rw [List.append_nil] at split
            refine Or.inl ⟨[c], rest, rfl, ?_, rfl⟩
            rw [← split]
            exact (List.append_nil _).symm
          · exact Or.inr ⟨[], c, rest, front, tail, rfl, split, nothing, whole, rfl, rfl⟩

/-- A cut in a character is not undone. -/
theorem isUtf8_of_flatMap_decodeUtf8 {chunks : List (List UInt8)} {text : List Char}
    (flat : encodeUtf8 text = chunks.flatten) (same : chunks.flatMap decodeUtf8 = text) :
    ∀ chunk ∈ chunks, IsUtf8 chunk := by
  induction chunks generalizing text with
  | nil => exact List.forall_mem_nil _
  | cons chunk rest ih =>
      rw [List.flatten_cons] at flat
      rw [List.flatMap_cons] at same
      rcases encodeUtf8_eq_append flat with ⟨first, second, rfl, rfl, later⟩ | inside
      · rw [decodeUtf8_encodeUtf8] at same
        exact List.forall_mem_cons.mpr
          ⟨⟨first, rfl⟩, ih later.symm (List.append_cancel_left same)⟩
      · rcases inside with ⟨first, c, second, head, tail, rfl, split, begun, left, rfl, later⟩
        obtain ⟨lead, more, encoded, leads, continues⟩ := utf8EncodeChar_eq_cons c
        rw [encoded] at split
        cases head with
        | nil => contradiction
        | cons byte others =>
            cases tail with
            | nil => contradiction
            | cons next remaining =>
                obtain ⟨rfl, rfl⟩ := List.cons.inj split
                have nextContinues : isContinuation next = true :=
                  continues next (List.mem_append_right _ List.mem_cons_self)
                have tooMany := starts_lt_length_flatMap later nextContinues
                have headStarts := starts_le_length_decodeUtf8 (lead :: others)
                have begins : 0 < starts (lead :: others) := by
                  rw [starts, List.countP_cons, leads]
                  exact Nat.succ_pos _
                have enough : second.length ≤ starts rest.flatten := by
                  rw [later, starts_append, starts_encodeUtf8]
                  exact Nat.le_add_left _ _
                have lengths := congrArg List.length same
                rw [decodeUtf8_encodeUtf8_append, List.length_append, List.length_append,
                  List.length_append, List.length_cons] at lengths
                omega

/-- The text of a stream is what its pieces decode to exactly where no cut is in
a character. -/
theorem flatMap_decodeUtf8_eq_iff {chunks : List (List UInt8)} (valid : IsUtf8 chunks.flatten) :
    chunks.flatMap decodeUtf8 = decodeUtf8 chunks.flatten ↔ ∀ chunk ∈ chunks, IsUtf8 chunk := by
  refine ⟨fun same => ?_, flatMap_decodeUtf8⟩
  obtain ⟨text, flat⟩ := valid
  rw [flat, decodeUtf8_encodeUtf8] at same
  exact isUtf8_of_flatMap_decodeUtf8 flat.symm same

end ZcashSoloPool.Bytes
