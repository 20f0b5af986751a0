import Mathlib.Data.List.DropRight
import SlotNet.Proofs.StatusMessage

/-!
# The fields of a status message

A body is cut into fields of three bytes, and what a field says depends on its own bytes alone
(`decodeFields_eq`). A field that was read is written with the same bytes, so writing what was read gives
the message without the zeros at its end (`reads_as_written`).

The zeros are cut before the fields are counted. A body of the right length is therefore refused as a whole
if its last byte is a zero, and only then (`fields_apart`).
-/

namespace SlotNet.StatusMessage

variable {body : List UInt8} {slots : Nat}

/-! ## One field -/

def fieldBytes (body : List UInt8) (place : Nat) : List UInt8 :=
  (body.drop (place * fieldWidth)).take fieldWidth

def readField : List UInt8 → Option Claim
  | [a, b, c] => decodeField a b c
  | _ => none

theorem length_fieldBytes {n place : Nat} (h : body.length = n * fieldWidth) (hplace : place < n) :
    (fieldBytes body place).length = fieldWidth := by
  have hle : (place + 1) * fieldWidth ≤ n * fieldWidth := Nat.mul_le_mul_right _ hplace
  rw [Nat.succ_mul] at hle
  rw [fieldBytes, List.length_take, List.length_drop, h]
  omega

theorem readField_eq_none_iff {field : List UInt8} (h : field.length = fieldWidth) :
    readField field = none ↔ ∃ b ∈ field, isDigit b = false := by
  obtain ⟨a, b, c, rfl⟩ := List.length_eq_three.1 h
  simp only [readField, decodeField, List.mem_cons, List.not_mem_nil, or_false, exists_eq_or_imp,
    exists_eq_left]
  cases isDigit a <;> cases isDigit b <;> cases isDigit c <;> simp

theorem digit_digitValue {b : UInt8} (h : isDigit b = true) : digit (digitValue b) = b := by
  obtain ⟨hge, hle⟩ := isDigit_iff.1 h
  have hvalue : digitValue b ≤ 9 := by
    unfold digitValue
    omega
  apply UInt8.toNat_inj.1
  rw [toNat_digit hvalue, digitValue]
  omega

theorem encodeField_of_decodeField {a b d : UInt8} {c : Claim} (h : decodeField a b d = some c) :
    encodeField c = [a, b, d] := by
  have hfits := fits_of_decodeField h
  have hpriority : min c.priority Claim.greatestPriority = c.priority := Nat.min_eq_left hfits.priority_le
  have howner : min c.owner greatestOwner = c.owner := Nat.min_eq_left hfits.owner_le
  unfold decodeField at h
  split at h
  · rename_i hdigits
    simp only [Bool.and_eq_true] at hdigits
    obtain ⟨⟨ha, hb⟩, hd⟩ := hdigits
    cases h
    have hsmall : digitValue d < 10 := by
      have := (isDigit_iff.1 hd).2
      unfold digitValue
      omega
    have htens : (digitValue b * 10 + digitValue d) / 10 = digitValue b := by omega
    have hones : (digitValue b * 10 + digitValue d) % 10 = digitValue d := by omega
    rw [encodeField]
    simp only [hpriority, howner, htens, hones, digit_digitValue ha, digit_digitValue hb,
      digit_digitValue hd]
  · cases h

/-! ## All fields -/

theorem decodeFields_eq {n : Nat} (h : body.length = n * fieldWidth) :
    decodeFields body = (List.range n).map fun place => readField (fieldBytes body place) := by
  induction n generalizing body with
  | zero =>
    have hnil : body = [] := List.eq_nil_of_length_eq_zero (by rw [h, Nat.zero_mul])
    rw [hnil]
    rfl
  | succ n ih =>
    match body, h with
    | a :: b :: c :: rest, h =>
      have hrest : rest.length = n * fieldWidth := by
        simp only [List.length_cons, Nat.succ_mul] at h
        unfold fieldWidth at h ⊢
        omega
      rw [decodeFields, ih hrest, List.range_succ_eq_map, List.map_cons, List.map_map]
      refine congrArg (List.cons _) (List.map_congr_left fun place _ => ?_)
      rw [Function.comp_apply, fieldBytes, fieldBytes, Nat.succ_mul]
      rfl
    | [], h | [_], h | [_, _], h =>
      simp only [List.length_cons, List.length_nil, Nat.succ_mul] at h
      unfold fieldWidth at h
      omega

theorem flatMap_encodeField_of_decodeFields {n : Nat} {cs : List Claim}
    (hlength : body.length = n * fieldWidth) (h : decodeFields body = cs.map some) :
    cs.flatMap encodeField = body := by
  fun_induction decodeFields body generalizing n cs with
  | case1 a b d rest ih =>
    obtain ⟨c, cs, rfl, hc, hcs⟩ := List.map_eq_cons_iff.1 h.symm
    have hn : rest.length = (n - 1) * fieldWidth := by
      rw [Nat.sub_mul, ← hlength, Nat.one_mul]
      rfl
    rw [List.flatMap_cons, encodeField_of_decodeField hc.symm, ih hn hcs.symm]
    rfl
  | case2 body hshort =>
    obtain rfl := List.map_eq_nil_iff.1 h.symm
    rcases body with _ | ⟨a, _ | ⟨b, _ | ⟨c, rest⟩⟩⟩
    · rfl
    · simp only [List.length_cons, List.length_nil, fieldWidth] at hlength
      omega
    · simp only [List.length_cons, List.length_nil, fieldWidth] at hlength
      omega
    · exact absurd rfl (hshort a b c rest)

/-! ## The text -/

theorem isValid_cons {a : UInt8} (h : a < 0x80) (rest : List UInt8) :
    Utf8.isValid (a :: rest) = Utf8.isValid rest := by
  match rest with
  | [] | [b] | [b, c] | b :: c :: d :: rest => simp [Utf8.isValid, h]

theorem isValid_append {front : List UInt8} (h : ∀ b ∈ front, b < 0x80) (rest : List UInt8) :
    Utf8.isValid (front ++ rest) = Utf8.isValid rest := by
  induction front with
  | nil => rfl
  | cons a front ih =>
    rw [List.cons_append, isValid_cons (h a (.head _)), ih fun b hb => h b (.tail _ hb)]

theorem exists_zeros (bytes : List UInt8) :
    ∃ zeros, bytes = trimZeros bytes ++ List.replicate zeros 0 := by
  have hzeros : bytes.rtakeWhile (· == 0) = List.replicate (bytes.rtakeWhile (· == 0)).length 0 :=
    List.eq_replicate_of_mem fun _ hb => eq_of_beq (List.mem_rtakeWhile_imp (p := (· == 0)) hb)
  refine ⟨(bytes.rtakeWhile (· == 0)).length, ?_⟩
  rw [← hzeros]
  exact List.rdropWhile_append_rtakeWhile.symm

theorem trimZeros_eq_self_iff : trimZeros body = body ↔ body.getLast? ≠ some 0 := by
  refine List.rdropWhile_eq_self_iff.trans ?_
  cases body using List.reverseRecOn with
  | nil => simp
  | append_singleton init b => simp

theorem length_trimZeros_lt (h : body.getLast? = some 0) : (trimZeros body).length < body.length := by
  have hpart : trimZeros body <+: body := List.rdropWhile_prefix _ body
  refine Nat.lt_of_le_of_ne hpart.length_le fun hlength => ?_
  exact trimZeros_eq_self_iff.1 (hpart.eq_of_length hlength) h

theorem trimZeros_append {front : List UInt8} (h : ∀ b ∈ front, b ≠ 0) (body : List UInt8) :
    trimZeros (front ++ body) = front ++ trimZeros body := by
  induction body using List.reverseRecOn with
  | nil => rw [List.append_nil, trimZeros_eq_self h, trimZeros_eq_self (by simp), List.append_nil]
  | append_singleton init b ih =>
    rw [← List.append_assoc]
    by_cases hb : b = 0
    · have hpos : (b == 0) = true := beq_iff_eq.2 hb
      exact (List.rdropWhile_concat_pos _ _ b hpos).trans
        (ih.trans (congrArg (front ++ ·) (List.rdropWhile_concat_pos _ _ b hpos).symm))
    · have hneg : ¬ (b == 0) = true := fun heq => hb (eq_of_beq heq)
      refine (List.rdropWhile_concat_neg _ _ b hneg).trans ?_
      rw [List.append_assoc]
      exact congrArg (front ++ ·) (List.rdropWhile_concat_neg _ _ b hneg).symm

theorem marker_ne_zero : ∀ b ∈ marker, b ≠ 0 := by
  have h : marker = [35, 84, 68, 77, 65, 85, 83, 69, 68, 35] := by
    decide +kernel
  rw [h]
  decide +kernel

/-- A message begins with the marker; the rest without its last zeros is the body. -/
theorem body?_eq_ok_iff {payload : List UInt8} :
    body? payload = .ok body ↔
      Utf8.isValid payload = true ∧ ∃ rest, payload = marker ++ rest ∧ body = trimZeros rest := by
  unfold body?
  cases Utf8.isValid payload with
  | false => simp
  | true =>
    by_cases hmarker : marker.isPrefixOf payload = true
    · obtain ⟨rest, rfl⟩ := List.isPrefixOf_iff_prefix.1 hmarker
      simp [hmarker, eq_comm]
    · have hnone : ∀ rest, payload ≠ marker ++ rest := fun rest h =>
        hmarker (List.isPrefixOf_iff_prefix.2 ⟨rest, h.symm⟩)
      simp [hmarker, hnone]

theorem decode_of_body {payload : List UInt8} (h : body? payload = .ok body) :
    decode payload slots = if body.length = bodyLength slots then
        .ok ⟨(decodeFields body).take slots, (decodeFields body).drop slots⟩
      else .error (.wrongLength (bodyLength slots) body.length) := by
  rw [decode, h]
  rfl

theorem decode_eq_ok_iff {payload : List UInt8} {m : StatusMessage} :
    decode payload slots = .ok m ↔ ∃ body, body? payload = .ok body ∧ body.length = bodyLength slots ∧
      m = ⟨(decodeFields body).take slots, (decodeFields body).drop slots⟩ := by
  cases hbody : body? payload with
  | error e => simp [decode, hbody, bind, Except.bind]
  | ok body =>
    rw [decode_of_body hbody]
    split
    · rename_i hlength
      simp [hlength, eq_comm]
    · rename_i hlength
      simp [hlength]

/-- What a body of the right length says. -/
def ofBody (body : List UInt8) (slots : Nat) : StatusMessage :=
  ⟨(List.range slots).map fun slot => readField (fieldBytes body slot),
    (List.range slots).map fun slot => readField (fieldBytes body (slots + slot))⟩

theorem ofBody_eq (h : body.length = bodyLength slots) :
    ofBody body slots = ⟨(decodeFields body).take slots, (decodeFields body).drop slots⟩ := by
  have hrange : List.range (2 * slots) = List.range slots ++ (List.range slots).map (slots + ·) := by
    rw [Nat.two_mul, List.range_add]
  have hrow : ((List.range slots).map fun slot => readField (fieldBytes body slot)).length = slots := by
    rw [List.length_map, List.length_range]
  rw [decodeFields_eq h, hrange, List.map_append, List.map_map, List.take_left' hrow,
    List.drop_left' hrow]
  rfl

theorem decodeAny_eq (payload : List UInt8) (h : bodyLength slots < Count.limit) :
    decodeAny payload slots = .ok (decode payload slots) := by
  have hmul : Count.mul (2 * fieldWidth) slots = .ok (2 * fieldWidth * slots) := by
    rw [Count.mul, if_pos]
    rwa [bodyLength, Nat.mul_right_comm] at h
  rw [decodeAny, hmul]
  split
  · rename_i e hbody
    rw [decode, hbody]
    rfl
  · rfl

/-! ## Writing what was read -/

/-- Rows of claims that fit their digits are read back as they were written. And where every field of a
message can be read, writing what was read gives the message without the zeros at its end. -/
theorem reads_as_written (slots : Nat) :
    (∀ previous current : List Claim, previous.length = slots → current.length = slots →
      (∀ c ∈ previous ++ current, c.Fits) →
      decode (encode previous current) slots = .ok ⟨previous.map some, current.map some⟩) ∧
    (∀ payload m, decode payload slots = .ok m → (∀ field ∈ m.previous ++ m.current, field.isSome) →
      ∃ previous current, m = ⟨previous.map some, current.map some⟩ ∧
        encode previous current = trimZeros payload ∧
        ∃ zeros, payload = encode previous current ++ List.replicate zeros 0) ∧
    (bodyLength slots < Count.limit → ∀ payload, decodeAny payload slots = .ok (decode payload slots)) := by
  refine ⟨fun previous current hp hc hfits => ?_, fun payload m hread hfields => ?_,
    fun hcount payload => decodeAny_eq payload hcount⟩
  · exact decode_encode hp hc (fun c h => hfits c (List.mem_append_left _ h))
      fun c h => hfits c (List.mem_append_right _ h)
  · obtain ⟨body, hbody, hlength, rfl⟩ := decode_eq_ok_iff.1 hread
    rw [List.take_append_drop] at hfields
    obtain ⟨cs, hcs⟩ : ∃ cs : List Claim, cs.map some = decodeFields body :=
      ⟨(decodeFields body).attach.map fun field => field.1.get (hfields field.1 field.2), by simp⟩
    obtain ⟨-, rest, rfl, rfl⟩ := body?_eq_ok_iff.1 hbody
    have hwritten : encode (cs.take slots) (cs.drop slots) = trimZeros (marker ++ rest) := by
      rw [encode, List.take_append_drop, flatMap_encodeField_of_decodeFields hlength hcs.symm,
        trimZeros_append marker_ne_zero]
    refine ⟨cs.take slots, cs.drop slots, ?_, hwritten, ?_⟩
    · rw [← hcs, List.map_take, List.map_drop]
    · rw [hwritten]
      exact exists_zeros _

/-- Two slots: the greatest numbers that a field can hold, a free slot, and two claims of others. -/
theorem reads_as_written_twoSlots :
    decode (encode [⟨9, 99⟩, .free] [⟨1, 42⟩, ⟨2, 7⟩]) 2
        = .ok ⟨[some ⟨9, 99⟩, some .free], [some ⟨1, 42⟩, some ⟨2, 7⟩]⟩ ∧
      decode (marker ++ [57, 48, 48, 49, 52, 50, 0, 0]) 1 = .ok ⟨[some ⟨9, 0⟩], [some ⟨1, 42⟩]⟩ ∧
      (∃ previous current,
        (⟨[some ⟨9, 0⟩], [some ⟨1, 42⟩]⟩ : StatusMessage) = ⟨previous.map some, current.map some⟩ ∧
        encode previous current = trimZeros (marker ++ [57, 48, 48, 49, 52, 50, 0, 0])) ∧
      bodyLength 2 < Count.limit ∧ decodeAny [] 2 = .ok (decode [] 2) := by
  have hread : decode (marker ++ [57, 48, 48, 49, 52, 50, 0, 0]) 1
      = .ok ⟨[some ⟨9, 0⟩], [some ⟨1, 42⟩]⟩ := by
    decide +kernel
  obtain ⟨previous, current, hrows, hwritten, -⟩ := (reads_as_written 1).2.1 _ _ hread (by decide)
  have hcount : bodyLength 2 < Count.limit := by decide
  refine ⟨(reads_as_written 2).1 _ _ rfl rfl fun c hc => ?_, hread, ⟨previous, current, hrows, hwritten⟩,
    hcount, (reads_as_written 2).2.2 hcount []⟩
  simp only [List.cons_append, List.nil_append, List.mem_cons, List.not_mem_nil, or_false] at hc
  rcases hc with rfl | rfl | rfl | rfl <;> exact ⟨by decide, by decide⟩

/-! ## One field cannot spoil another -/

/-- Behind the marker stands a text of the right length. If its last byte is no zero it is read, each slot
from its own field, and a field says nothing exactly if it has a byte that is no digit. If the last byte is
a zero, the text is refused as too short. -/
theorem fields_apart (htext : Utf8.isValid body = true) (hlength : body.length = bodyLength slots) :
    (body.getLast? ≠ some 0 → decode (marker ++ body) slots = .ok (ofBody body slots)) ∧
    (body.getLast? = some 0 → decode (marker ++ body) slots
      = .error (.wrongLength (bodyLength slots) (trimZeros body).length)) ∧
    (∀ place < 2 * slots, readField (fieldBytes body place) = none
      ↔ ∃ b ∈ fieldBytes body place, isDigit b = false) ∧
    (bodyLength slots < Count.limit →
      decodeAny (marker ++ body) slots = .ok (decode (marker ++ body) slots)) := by
  have hvalid : Utf8.isValid (marker ++ body) = true := by
    rw [isValid_append marker_ascii, htext]
  have hbody : body? (marker ++ body) = .ok (trimZeros body) :=
    body?_eq_ok_iff.2 ⟨hvalid, body, rfl, rfl⟩
  refine ⟨fun hlast => ?_, fun hlast => ?_, fun place hplace => ?_, decodeAny_eq _⟩
  · rw [trimZeros_eq_self_iff.2 hlast] at hbody
    rw [decode_of_body hbody, if_pos hlength, ofBody_eq hlength]
  · have hshort : (trimZeros body).length < bodyLength slots := hlength ▸ length_trimZeros_lt hlast
    rw [decode_of_body hbody, if_neg (Nat.ne_of_lt hshort)]
  · exact readField_eq_none_iff (length_fieldBytes hlength hplace)

/-- A character of two bytes lies in two fields, and spoils these two. -/
theorem fields_apart_straddling :
    Utf8.isValid [49, 48, 0xc3, 0xa9, 48, 48, 48, 48, 48, 49, 48, 52] = true ∧
      decode (marker ++ [49, 48, 0xc3, 0xa9, 48, 48, 48, 48, 48, 49, 48, 52]) 2
        = .ok ⟨[none, none], [some .free, some ⟨1, 4⟩]⟩ ∧
      (readField (fieldBytes [49, 48, 0xc3, 0xa9, 48, 48, 48, 48, 48, 49, 48, 52] 1) = none ↔
        ∃ b ∈ fieldBytes [49, 48, 0xc3, 0xa9, 48, 48, 48, 48, 48, 49, 48, 52] 1, isDigit b = false) ∧
      decode (marker ++ [48, 48, 48, 48, 48, 0]) 1 = .error (.wrongLength 6 5) := by
  have htext : Utf8.isValid [49, 48, 0xc3, 0xa9, 48, 48, 48, 48, 48, 49, 48, 52] = true := by decide
  have hlength : [49, 48, 0xc3, 0xa9, 48, 48, 48, 48, 48, 49, 48, 52].length = bodyLength 2 := rfl
  have hshort : [48, 48, 48, 48, 48, 0].length = bodyLength 1 := rfl
  obtain ⟨hread, -, hnone, -⟩ := fields_apart htext hlength
  exact ⟨htext, hread (by decide), hnone 1 (by decide),
    (fields_apart (by decide) hshort).2.1 (by decide)⟩

/-- Not every text of the right length is read: where the last field ends with a zero, all is refused. -/
theorem zero_at_end_refused :
    ¬ ∀ (slots : Nat) (body : List UInt8), Utf8.isValid body = true → body.length = bodyLength slots →
      ∃ m, decode (marker ++ body) slots = .ok m := by
  intro h
  obtain ⟨m, hm⟩ := h 1 [48, 48, 48, 48, 48, 0] (by decide) rfl
  have hrefused : decode (marker ++ [48, 48, 48, 48, 48, 0]) 1 = .error (.wrongLength 6 5) := by
    decide +kernel
  rw [hrefused] at hm
  cases hm

end SlotNet.StatusMessage
