/-!
# UTF-8

Which byte strings are UTF-8, and the text of those that are. A character has one to four bytes;
the first one fixes the length and the span of the second one, and all later ones are tails. So no
character has two forms, and surrogates have none.
-/

namespace SlotNet.Utf8

def within (low high b : UInt8) : Bool := low ≤ b && b ≤ high

/-- A byte after the first two of a character. -/
def isTail (b : UInt8) : Bool := within 0x80 0xbf b

/-- Is the byte string UTF-8? -/
def isValid : List UInt8 → Bool
  | [] => true
  | [a] => a < 0x80
  | [a, b] =>
    if a < 0x80 then isValid [b] else within 0xc2 0xdf a && isTail b
  | [a, b, c] =>
    if a < 0x80 then isValid [b, c]
    else if within 0xc2 0xdf a then isTail b && isValid [c]
    else secondOfThree a b && isTail c
  | a :: b :: c :: d :: rest =>
    if a < 0x80 then isValid (b :: c :: d :: rest)
    else if within 0xc2 0xdf a then isTail b && isValid (c :: d :: rest)
    else if within 0xe0 0xef a then secondOfThree a b && isTail c && isValid (d :: rest)
    else secondOfFour a b && isTail c && isTail d && isValid rest
where
  /-- May `b` follow `a` in a character of three bytes? -/
  secondOfThree (a b : UInt8) : Bool :=
    if a = 0xe0 then within 0xa0 0xbf b
    else if a = 0xed then within 0x80 0x9f b
    else within 0xe1 0xef a && isTail b
  /-- May `b` follow `a` in a character of four bytes? -/
  secondOfFour (a b : UInt8) : Bool :=
    if a = 0xf0 then within 0x90 0xbf b
    else if a = 0xf4 then within 0x80 0x8f b
    else within 0xf1 0xf3 a && isTail b

def encode (s : String) : List UInt8 := s.toUTF8.toList

def decode? (bytes : List UInt8) : Option String := String.fromUTF8? ⟨bytes.toArray⟩

end SlotNet.Utf8
