import SlotNet.Fault
import SlotNet.Claim
import SlotNet.Text.Utf8

/-!
# Status messages

A node broadcasts its view of the data slots as text: a marker, then three digits for each slot of
the previous frame and for each slot of the current one. The first digit is the priority, the other
two are the owner. A field that is not three digits makes its own slot unreadable and no other.
-/

namespace SlotNet

/-- A status message that was read. Unreadable slots are `none`. -/
structure StatusMessage where
  previous : List (Option Claim)
  current : List (Option Claim)
  deriving DecidableEq, Repr

/-- Why a byte string is no status message. -/
inductive StatusError where
  | notText
  | missingMarker
  | wrongLength (expected actual : Nat)
  deriving DecidableEq, Repr

def StatusError.message : StatusError → String
  | .notText => "reservation message is not ASCII"
  | .missingMarker => "reservation marker missing"
  | .wrongLength expected actual =>
    "reservation body has " ++ toString actual ++ " bytes, expected " ++ toString expected

namespace StatusMessage

/-- With this begins every status message. -/
def marker : List UInt8 := "#TDMAUSED#".toUTF8.toList

def fieldWidth : Nat := 3

/-- The greatest owner that a field can hold. -/
def greatestOwner : Nat := 99

/-! ## Writing -/

def digit (n : Nat) : UInt8 := (48 + n).toUInt8

/-- Priority and owner in three digits; what is too great for its digits is cut. -/
def encodeField (c : Claim) : List UInt8 :=
  let owner := min c.owner greatestOwner
  [digit (min c.priority Claim.greatestPriority), digit (owner / 10), digit (owner % 10)]

def encode (previous current : List Claim) : List UInt8 :=
  marker ++ (previous ++ current).flatMap encodeField

/-! ## Reading -/

def isDigit (b : UInt8) : Bool := 48 ≤ b && b ≤ 57

def digitValue (b : UInt8) : Nat := b.toNat - 48

/-- The claim of a field. -/
def decodeField (a b c : UInt8) : Option Claim :=
  if isDigit a && isDigit b && isDigit c then
    some ⟨digitValue a, digitValue b * 10 + digitValue c⟩
  else none

def decodeFields : List UInt8 → List (Option Claim)
  | a :: b :: c :: rest => decodeField a b c :: decodeFields rest
  | _ => []

/-- A byte string without the zeros at its end. -/
def trimZeros (bytes : List UInt8) : List UInt8 := (bytes.reverse.dropWhile (· == 0)).reverse

/-- The bytes of the fields of so many slots. -/
def bodyLength (slots : Nat) : Nat := 2 * slots * fieldWidth

/-- The body of a text that has the marker. -/
def body? (bytes : List UInt8) : Except StatusError (List UInt8) :=
  if !Utf8.isValid bytes then .error .notText
  else if marker.isPrefixOf bytes then .ok (trimZeros (bytes.drop marker.length))
  else .error .missingMarker

def decode (bytes : List UInt8) (slots : Nat) : Except StatusError StatusMessage := do
  let body ← body? bytes
  if body.length = bodyLength slots then
    let fields := decodeFields body
    .ok ⟨fields.take slots, fields.drop slots⟩
  else .error (.wrongLength (bodyLength slots) body.length)

/-- Reads a message about any number of slots. Where the marker is found, the length of the body
must be a count. -/
def decodeAny (bytes : List UInt8) (slots : Nat) :
    Except Fault (Except StatusError StatusMessage) :=
  match body? bytes with
  | .error e => .ok (.error e)
  | .ok _ => (Count.mul (2 * fieldWidth) slots).map fun _ => decode bytes slots

end StatusMessage

end SlotNet
