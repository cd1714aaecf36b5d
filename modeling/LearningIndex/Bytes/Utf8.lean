/-!
# UTF-8

Encoding of characters as bytes and two ways back.  `decode?` accepts well-formed bytes only.
`lossy` accepts every sequence of bytes and puts one replacement character for each longest part
that begins a character without completing it, and for each byte that begins none.
-/

namespace LearningIndex

/-- The contents of a file or of a message body. -/
abbrev ByteString := List UInt8

namespace Utf8

/-- The bytes of one character. -/
def encodeChar (character : Char) : ByteString :=
  let code := character.toNat
  if code < 0x80 then [UInt8.ofNat code]
  else if code < 0x800 then
    [UInt8.ofNat (0xc0 + code / 0x40), UInt8.ofNat (0x80 + code % 0x40)]
  else if code < 0x10000 then
    [UInt8.ofNat (0xe0 + code / 0x1000), UInt8.ofNat (0x80 + code / 0x40 % 0x40),
      UInt8.ofNat (0x80 + code % 0x40)]
  else
    [UInt8.ofNat (0xf0 + code / 0x40000), UInt8.ofNat (0x80 + code / 0x1000 % 0x40),
      UInt8.ofNat (0x80 + code / 0x40 % 0x40), UInt8.ofNat (0x80 + code % 0x40)]

def encode (text : List Char) : ByteString :=
  text.flatMap encodeChar

def ofString (text : String) : ByteString :=
  encode text.toList

/-- Whether a byte continues a character begun before it. -/
def isContinuation (byte : UInt8) : Bool :=
  0x80 ≤ byte && byte ≤ 0xbf

/-- The number of bytes that a first byte announces; a byte that begins no longer character counts
as one. -/
def declaredWidth (lead : UInt8) : Nat :=
  if 0xc2 ≤ lead && lead ≤ 0xdf then 2
  else if 0xe0 ≤ lead && lead ≤ 0xef then 3
  else if 0xf0 ≤ lead && lead ≤ 0xf4 then 4
  else 1

/-- Whether `second` may follow the first byte `lead` of a character of two to four bytes.  The
bounds leave out overlong forms, surrogates and code points above U+10FFFF. -/
def isSecond (lead second : UInt8) : Bool :=
  if lead == 0xe0 then 0xa0 ≤ second && second ≤ 0xbf
  else if lead == 0xed then 0x80 ≤ second && second ≤ 0x9f
  else if lead == 0xf0 then 0x90 ≤ second && second ≤ 0xbf
  else if lead == 0xf4 then 0x80 ≤ second && second ≤ 0x8f
  else isContinuation second

/-- The character that stands for bytes which encode none. -/
def replacement : Char := '\ufffd'

/-- The payload of a byte once the marker bits, worth `marker`, are taken off. -/
def payload (marker : Nat) (byte : UInt8) : Nat :=
  byte.toNat - marker

/-- The character of a first byte and one more. -/
def join2 (lead second : UInt8) : Char :=
  Char.ofNat (payload 0xc0 lead * 0x40 + payload 0x80 second)

def join3 (lead second third : UInt8) : Char :=
  Char.ofNat (payload 0xe0 lead * 0x1000 + payload 0x80 second * 0x40 + payload 0x80 third)

def join4 (lead second third fourth : UInt8) : Char :=
  Char.ofNat (payload 0xf0 lead * 0x40000 + payload 0x80 second * 0x1000
    + payload 0x80 third * 0x40 + payload 0x80 fourth)

/-- What stands at the front of some bytes. -/
inductive Front where
  | whole (character : Char) (width : Nat)
  /-- The beginning of a character, `width` bytes long, that is not completed; or a byte that
  begins none. -/
  | broken (width : Nat)
deriving DecidableEq, Repr

namespace Front

def width : Front → Nat
  | whole _ width => width
  | broken width => width

def shown : Front → Char
  | whole character _ => character
  | broken _ => replacement

end Front

/-- The front of the bytes `lead :: rest`. -/
def front (lead : UInt8) (rest : ByteString) : Front :=
  match declaredWidth lead, rest with
  | 2, second :: _ =>
    if isSecond lead second then .whole (join2 lead second) 2 else .broken 1
  | 3, second :: third :: _ =>
    if isSecond lead second then
      if isContinuation third then .whole (join3 lead second third) 3 else .broken 2
    else .broken 1
  | 3, [second] => if isSecond lead second then .broken 2 else .broken 1
  | 4, second :: third :: fourth :: _ =>
    if isSecond lead second then
      if isContinuation third then
        if isContinuation fourth then .whole (join4 lead second third fourth) 4 else .broken 3
      else .broken 2
    else .broken 1
  | 4, [second, third] =>
    if isSecond lead second then
      if isContinuation third then .broken 3 else .broken 2
    else .broken 1
  | 4, [second] => if isSecond lead second then .broken 2 else .broken 1
  | 1, _ => if lead < 0x80 then .whole (Char.ofNat lead.toNat) 1 else .broken 1
  | _, _ => .broken 1

/-- The text of any bytes, with replacement characters where they encode none. -/
def lossy : ByteString → List Char
  | [] => []
  | lead :: rest =>
    let found := front lead rest
    found.shown :: lossy (rest.drop (found.width - 1))
termination_by bytes => bytes.length
decreasing_by simp only [List.length_drop, List.length_cons]; omega

/-- The text of well-formed bytes. -/
def decode? : ByteString → Option (List Char)
  | [] => some []
  | lead :: rest =>
    match front lead rest with
    | .whole character width => (decode? (rest.drop (width - 1))).map (character :: ·)
    | .broken _ => none
termination_by bytes => bytes.length
decreasing_by simp only [List.length_drop, List.length_cons]; omega

/-- The bytes of a file as a string, if they are well-formed. -/
def string? (bytes : ByteString) : Option String :=
  (decode? bytes).map String.ofList

end Utf8
end LearningIndex
