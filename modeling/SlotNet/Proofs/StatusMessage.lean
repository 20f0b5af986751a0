import SlotNet.StatusMessage

/-!
# Reading back a status message

`decode_encode`: two rows of claims that fit their digits are read back as they were written. The
body of a written message is all digits, so it is text, and it has no zero at its end to be cut.
-/

namespace SlotNet

/-- A claim that three digits can hold. -/
structure Claim.Fits (c : Claim) : Prop where
  priority_le : c.priority ≤ Claim.greatestPriority
  owner_le : c.owner ≤ StatusMessage.greatestOwner

namespace StatusMessage

/-! ## Fields -/

theorem toNat_digit {n : Nat} (h : n ≤ 9) : (digit n).toNat = 48 + n := by
  show (48 + n) % 2 ^ 8 = 48 + n
  omega

theorem isDigit_digit {n : Nat} (h : n ≤ 9) : isDigit (digit n) = true := by
  have hn := toNat_digit h
  simp only [isDigit, Bool.and_eq_true, decide_eq_true_eq, UInt8.le_iff_toNat_le]
  rw [hn]
  exact ⟨by simp, by simp; omega⟩

theorem digitValue_digit {n : Nat} (h : n ≤ 9) : digitValue (digit n) = n := by
  rw [digitValue, toNat_digit h]
  omega

theorem encodeField_eq (c : Claim) :
    ∃ a b d, a ≤ 9 ∧ b ≤ 9 ∧ d ≤ 9 ∧ encodeField c = [digit a, digit b, digit d] := by
  refine ⟨_, _, _, ?_, ?_, ?_, rfl⟩
  · exact Nat.min_le_right _ _
  · have := Nat.min_le_right c.owner greatestOwner
    unfold greatestOwner at this ⊢
    omega
  · omega

theorem isDigit_of_mem_encodeField {c : Claim} {b : UInt8} (h : b ∈ encodeField c) :
    isDigit b = true := by
  obtain ⟨x, y, z, hx, hy, hz, he⟩ := encodeField_eq c
  rw [he] at h
  simp only [List.mem_cons, List.not_mem_nil, or_false] at h
  rcases h with rfl | rfl | rfl
  · exact isDigit_digit hx
  · exact isDigit_digit hy
  · exact isDigit_digit hz

theorem length_encodeField (c : Claim) : (encodeField c).length = fieldWidth := rfl

theorem decodeField_encode {c : Claim} (h : c.Fits) :
    decodeField (digit (min c.priority Claim.greatestPriority))
      (digit (min c.owner greatestOwner / 10)) (digit (min c.owner greatestOwner % 10)) = some c := by
  have hp : c.priority ≤ 9 := h.priority_le
  have ho : c.owner ≤ 99 := h.owner_le
  have hp' : min c.priority Claim.greatestPriority = c.priority := Nat.min_eq_left hp
  have ho' : min c.owner greatestOwner = c.owner := Nat.min_eq_left ho
  have hd : c.owner / 10 ≤ 9 := by omega
  have hm : c.owner % 10 ≤ 9 := by omega
  rw [hp', ho', decodeField, isDigit_digit hp, isDigit_digit hd, isDigit_digit hm]
  simp only [Bool.and_self, if_true, digitValue_digit hp, digitValue_digit hd, digitValue_digit hm]
  have : c.owner / 10 * 10 + c.owner % 10 = c.owner := by omega
  rw [this]

theorem decodeFields_encode {cs : List Claim} (h : ∀ c ∈ cs, c.Fits) :
    decodeFields (cs.flatMap encodeField) = cs.map some := by
  induction cs with
  | nil => rfl
  | cons c cs ih =>
    rw [List.flatMap_cons, List.map_cons]
    show decodeField _ _ _ :: decodeFields (cs.flatMap encodeField) = _
    rw [decodeField_encode (h c (by simp)), ih fun d hd => h d (by simp [hd])]

theorem length_flatMap_encodeField (cs : List Claim) :
    (cs.flatMap encodeField).length = cs.length * fieldWidth := by
  induction cs with
  | nil => rfl
  | cons c cs ih =>
    rw [List.flatMap_cons, List.length_append, ih, length_encodeField, List.length_cons,
      Nat.succ_mul, Nat.add_comm]

/-! ## The text -/

theorem isValid_of_ascii {bytes : List UInt8} (h : ∀ b ∈ bytes, b < 0x80) :
    Utf8.isValid bytes = true := by
  -- every byte is a character of its own, so only the first branch of each case is taken
  fun_induction Utf8.isValid bytes with
  | case1 => rfl
  | case2 a => simpa using h a
  | _ => simp_all

theorem marker_ascii : ∀ b ∈ marker, b < 0x80 := by
  have h : marker = [35, 84, 68, 77, 65, 85, 83, 69, 68, 35] := by
    decide +kernel
  have hall : marker.all (· < 0x80) = true := by
    rw [h]
    rfl
  intro b hb
  exact of_decide_eq_true (List.all_eq_true.1 hall b hb)

theorem trimZeros_eq_self {bytes : List UInt8} (h : ∀ b ∈ bytes, b ≠ 0) :
    trimZeros bytes = bytes := by
  have h' : bytes.reverse.dropWhile (· == 0) = bytes.reverse := by
    cases hr : bytes.reverse with
    | nil => rfl
    | cons b rest =>
      have hb : b ≠ 0 := h b (List.mem_reverse.1 (hr ▸ List.mem_cons_self))
      rw [List.dropWhile_cons_of_neg (by simpa using hb)]
  rw [trimZeros, h', List.reverse_reverse]

theorem isDigit_iff {b : UInt8} : isDigit b = true ↔ 48 ≤ b.toNat ∧ b.toNat ≤ 57 := by
  simp [isDigit, UInt8.le_iff_toNat_le]

theorem body_encode (previous current : List Claim) :
    body? (encode previous current) = .ok ((previous ++ current).flatMap encodeField) := by
  have hdigit : ∀ b ∈ (previous ++ current).flatMap encodeField, isDigit b = true := by
    intro b hb
    obtain ⟨c, -, hc⟩ := List.mem_flatMap.1 hb
    exact isDigit_of_mem_encodeField hc
  have hvalid : Utf8.isValid (encode previous current) = true := by
    refine isValid_of_ascii fun b hb => ?_
    rcases List.mem_append.1 hb with hb | hb
    · exact marker_ascii b hb
    · have := (isDigit_iff.1 (hdigit b hb)).2
      rw [UInt8.lt_iff_toNat_lt]
      exact Nat.lt_of_le_of_lt this (by decide)
  have hmarker : marker.isPrefixOf (encode previous current) = true := by
    rw [List.isPrefixOf_iff_prefix]
    exact List.prefix_append _ _
  have hzero : ∀ b ∈ (previous ++ current).flatMap encodeField, b ≠ 0 := by
    intro b hb hb0
    have := (isDigit_iff.1 (hdigit b hb)).1
    rw [hb0] at this
    exact absurd this (by decide)
  rw [body?, hvalid, hmarker, encode, List.drop_left, trimZeros_eq_self hzero]
  rfl

/-! ## Messages -/

theorem decode_encode {previous current : List Claim} {slots : Nat}
    (hp : previous.length = slots) (hc : current.length = slots)
    (fp : ∀ c ∈ previous, c.Fits) (fc : ∀ c ∈ current, c.Fits) :
    decode (encode previous current) slots = .ok ⟨previous.map some, current.map some⟩ := by
  have hfields : decodeFields ((previous ++ current).flatMap encodeField)
      = (previous ++ current).map some := by
    refine decodeFields_encode fun c hm => ?_
    rcases List.mem_append.1 hm with hm | hm
    · exact fp c hm
    · exact fc c hm
  have hlength : ((previous ++ current).flatMap encodeField).length = bodyLength slots := by
    rw [length_flatMap_encodeField, List.length_append, hp, hc, bodyLength, Nat.two_mul]
  have htake : slots = (previous.map some).length := by rw [List.length_map, hp]
  rw [decode, body_encode]
  show (if _ then _ else _) = _
  rw [if_pos hlength, hfields, List.map_append]
  congr 2
  · rw [htake, List.take_left]
  · rw [htake, List.drop_left]

/-! ## What reading gives -/

theorem fits_of_decodeField {a b d : UInt8} {c : Claim} (h : decodeField a b d = some c) :
    c.Fits := by
  unfold decodeField at h
  split at h
  · rename_i hd
    simp only [Bool.and_eq_true] at hd
    have ha := (isDigit_iff.1 hd.1.1).2
    have hb := (isDigit_iff.1 hd.1.2).2
    have hd := (isDigit_iff.1 hd.2).2
    cases h
    refine ⟨?_, ?_⟩
    · show a.toNat - 48 ≤ 9
      omega
    · show (b.toNat - 48) * 10 + (d.toNat - 48) ≤ 99
      omega
  · cases h

theorem fits_of_mem_decodeFields {bytes : List UInt8} {c : Claim}
    (h : some c ∈ decodeFields bytes) : c.Fits := by
  fun_induction decodeFields bytes with
  | case1 a b d rest ih =>
    rcases List.mem_cons.1 h with h | h
    · exact fits_of_decodeField h.symm
    · exact ih h
  | case2 => simp at h

theorem length_decodeFields {bytes : List UInt8} {n : Nat} (h : bytes.length = n * fieldWidth) :
    (decodeFields bytes).length = n := by
  induction n generalizing bytes with
  | zero =>
    have hb : bytes = [] := List.eq_nil_of_length_eq_zero (by simpa using h)
    rw [hb]
    rfl
  | succ n ih =>
    match bytes, h with
    | a :: b :: d :: rest, h =>
      have hrest : rest.length = n * fieldWidth := by
        simp only [List.length_cons, Nat.succ_mul] at h
        unfold fieldWidth at h ⊢
        omega
      rw [decodeFields, List.length_cons, ih hrest]
    | [], h | [_], h | [_, _], h =>
      simp only [List.length_cons, List.length_nil, Nat.succ_mul] at h
      unfold fieldWidth at h
      omega

/-- A message that was read has the asked number of fields for each generation, and every claim in
it fits its digits. -/
structure WellRead (m : StatusMessage) (slots : Nat) : Prop where
  length_previous : m.previous.length = slots
  length_current : m.current.length = slots
  fits_previous : ∀ c, some c ∈ m.previous → c.Fits
  fits_current : ∀ c, some c ∈ m.current → c.Fits

theorem wellRead_of_decode {bytes : List UInt8} {slots : Nat} {m : StatusMessage}
    (h : decode bytes slots = .ok m) : WellRead m slots := by
  rw [decode] at h
  cases hb : body? bytes with
  | error e => rw [hb] at h; cases h
  | ok body =>
    rw [hb] at h
    change (if _ then _ else _) = _ at h
    split at h
    · rename_i hl
      cases h
      have hlength : (decodeFields body).length = 2 * slots := length_decodeFields hl
      refine ⟨?_, ?_, fun c hc => ?_, fun c hc => ?_⟩
      · rw [List.length_take]; omega
      · rw [List.length_drop]; omega
      · exact fits_of_mem_decodeFields (List.mem_of_mem_take hc)
      · exact fits_of_mem_decodeFields (List.mem_of_mem_drop hc)
    · cases h

end StatusMessage

end SlotNet
