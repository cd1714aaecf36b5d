import LearningIndex.Bytes.Utf8
import LearningIndex.Json.Reader
import LearningIndex.Text.Basic

/-!
# Addresses

Whether a text is an absolute address: a scheme, a colon, and what the scheme asks for.  The schemes
of the web need a host, which is a name or a number of an internet protocol and may have a port.
A name is checked for characters that no name has; beyond ASCII every character is taken for one
that a name may have.  Controls and spaces around an address are of no account, and neither are tabs
and line ends within.
-/

namespace LearningIndex
namespace Http

/-- Whether a character is a control character of ASCII or a space. -/
def isControlOrSpace (character : Char) : Bool :=
  character.toNat ≤ 0x20

/-- A text as an address is read from it. -/
def addressText (text : List Char) : List Char :=
  let inner := ((text.dropWhile isControlOrSpace).reverse.dropWhile isControlOrSpace).reverse
  inner.filter fun character => !(['\t', '\n', '\r'].contains character)

/-- Whether a character may stand in a scheme after its first letter. -/
def isSchemePart (character : Char) : Bool :=
  Text.isAsciiLetter character || Text.isDigit character || ['+', '-', '.'].contains character

/-- The scheme in front of the colon, in lower case, and what follows the colon. -/
def readScheme (text : List Char) : Option (List Char × List Char) :=
  let scheme := text.takeWhile isSchemePart
  match scheme, text.dropWhile isSchemePart with
  | first :: _, ':' :: rest =>
    if Text.isAsciiLetter first then some (Text.lowerAscii scheme, rest) else none
  | _, _ => none

/-- The schemes of the web, whose addresses need a host. -/
def webSchemes : List (List Char) :=
  ["http", "https", "ws", "wss", "ftp"].map String.toList

/-- Whether a character ends the part of an address with the host; in the schemes of the web a
backslash does so too. -/
def endsAuthority (web : Bool) (character : Char) : Bool :=
  ['/', '?', '#'].contains character || (web && character = '\\')

/-- The value of a part of a dotted number: hexadecimal after `0x`, octal after another zero. -/
def dottedPart? (part : List Char) : Option Nat :=
  let digits (base : Nat) (text : List Char) : Option Nat :=
    text.foldl
      (fun value character =>
        match value, Hexadecimal.value? character with
        | some value, some digit => if digit < base then some (base * value + digit) else none
        | _, _ => none)
      (some 0)
  match part with
  | [] => none
  | '0' :: 'x' :: rest => digits 16 rest
  | '0' :: 'X' :: rest => digits 16 rest
  | '0' :: first :: rest => digits 8 (first :: rest)
  | part => digits 10 part

/-- The parts of a name between its points, without an empty one at the end. -/
def nameParts (name : List Char) : List (List Char) :=
  let parts := Text.splitAtMark '.' name
  if 1 < parts.length && parts.getLast? == some [] then parts.dropLast else parts

/-- Whether the last part of a name looks like a number. -/
def endsInNumber (name : List Char) : Bool :=
  match (nameParts name).getLast? with
  | some last =>
    (!last.isEmpty && last.all Text.isDigit)
      || ((last.take 2 = ['0', 'x'] || last.take 2 = ['0', 'X']) && (dottedPart? last).isSome)
  | none => false

/-- Whether a name is a dotted number: at most four parts, of which the last one fills what the
others leave of 32 bits. -/
def isDottedNumber (name : List Char) : Bool :=
  let parts := nameParts name
  match parts.mapM dottedPart? with
  | some values =>
    values.length ≤ 4 && values.dropLast.all (· < 256)
      && values.getLast?.any (· < Nat.pow 256 (5 - values.length))
  | none => false

/-- Whether a part is a decimal number below 256 without leading zeros. -/
def isOctet (part : List Char) : Bool :=
  !part.isEmpty && part.length ≤ 3 && part.all Text.isDigit && Text.readDigits 0 part < 256
    && (part.length = 1 || part.head? != some '0')

/-- Whether a group is one to four hexadecimal digits. -/
def isHexGroup (group : List Char) : Bool :=
  !group.isEmpty && group.length ≤ 4 && group.all fun digit => (Hexadecimal.value? digit).isSome

/-- The number of 16-bit groups of a list of groups; the last one may be a dotted number. -/
def groupCount? : List (List Char) → Option Nat
  | [] => some 0
  | [last] =>
    let octets := Text.splitAtMark '.' last
    if isHexGroup last then some 1
    else if octets.length = 4 && octets.all isOctet then some 2
    else none
  | group :: rest => if isHexGroup group then (groupCount? rest).map (· + 1) else none

/-- The groups between colons; an empty text has none. -/
def groups (text : List Char) : List (List Char) :=
  if text.isEmpty then [] else Text.splitAtMark ':' text

/-- Splits a text at its first double colon. -/
def splitDoubleColon : List Char → Option (List Char × List Char)
  | [] => none
  | ':' :: ':' :: rest => some ([], rest)
  | character :: rest =>
    (splitDoubleColon rest).map fun (front, back) => (character :: front, back)

/-- Whether a text is a number of the sixth version of the protocol. -/
def isColonNumber (text : List Char) : Bool :=
  match splitDoubleColon text with
  | some (front, back) =>
    !front.contains '.' &&
      match groupCount? (groups front), groupCount? (groups back) with
      | some before, some after => before + after ≤ 7
      | _, _ => false
  | none => groupCount? (groups text) = some 8

def hexByte? (byte : UInt8) : Option Nat :=
  Hexadecimal.value? (Char.ofNat byte.toNat)

/-- The bytes of a text with the percent signs and pairs of digits in it decoded. -/
def percentDecode : ByteString → ByteString
  | [] => []
  | first :: second :: third :: rest =>
    match hexByte? second, hexByte? third with
    | some high, some low =>
      if first = 0x25 then UInt8.ofNat (16 * high + low) :: percentDecode rest
      else first :: percentDecode (second :: third :: rest)
    | _, _ => first :: percentDecode (second :: third :: rest)
  | byte :: rest => byte :: percentDecode rest

/-- Whether a character may stand in a name. -/
def isNamePart (character : Char) : Bool :=
  0x20 < character.toNat && character.toNat ≠ 0x7f
    && !"#/:<>?@[\\]^|%".toList.contains character

/-- Whether a text is the host of an address of the web. -/
def isWebHost (host : List Char) : Bool :=
  match host with
  | [] => false
  | '[' :: rest => rest.getLast? == some ']' && isColonNumber rest.dropLast
  | host =>
    match Utf8.decode? (percentDecode (Utf8.encode host)) with
    | some name =>
      let name := Text.lowerAscii name
      name.all isNamePart && (!endsInNumber name || isDottedNumber name)
    | none => false

/-- Whether a text is the host of an address of another scheme; there may be none. -/
def isOpaqueHost (host : List Char) : Bool :=
  match host with
  | '[' :: rest => rest.getLast? == some ']' && isColonNumber rest.dropLast
  | host => host.all fun character =>
      character ≠ '\x00' && !" #/:<>?@[\\]^|".toList.contains character

/-- Splits the host from a port: at the first colon outside of brackets. -/
def splitPort (bracketed : Bool) : List Char → List Char × Option (List Char)
  | [] => ([], none)
  | character :: rest =>
    if character = ':' && !bracketed then ([], some rest)
    else
      let inside := if character = '[' then true else if character = ']' then false else bracketed
      let (host, port) := splitPort inside rest
      (character :: host, port)

/-- Whether a text is a port; it may be empty. -/
def isPort (port : List Char) : Bool :=
  port.all Text.isDigit && Text.readDigits 0 port < 65536

/-- The part of an authority after the last at sign, if there is one. -/
def afterLogin (authority : List Char) : List Char :=
  ((Text.splitAtMark '@' authority).getLast?).getD []

/-- Whether a text begins with an authority that the scheme allows. -/
def hasAuthority (web : Bool) (text : List Char) : Bool :=
  let authority := text.takeWhile fun character => !endsAuthority web character
  let (host, port) := splitPort false (afterLogin authority)
  let isBare := !authority.contains '@' && port.isNone
  let isHost :=
    if web then isWebHost host else isOpaqueHost host && (isBare || !host.isEmpty)
  port.all isPort && isHost

/-- Whether a text is the letter of a drive. -/
def isDrive : List Char → Bool
  | [letter, mark] => Text.isAsciiLetter letter && (mark = ':' || mark = '|')
  | _ => false

/-- Whether a text after the scheme of files is well-formed. -/
def isFileLocation : List Char → Bool
  | first :: second :: rest =>
    if endsAuthority true first && first ≠ '?' && first ≠ '#'
        && endsAuthority true second && second ≠ '?' && second ≠ '#' then
      let host := rest.takeWhile fun character => !endsAuthority true character
      host.isEmpty || isDrive host || isWebHost host
    else true
  | _ => true

/-- Whether a text is an absolute address. -/
def isAddress (text : String) : Bool :=
  match readScheme (addressText text.toList) with
  | none => false
  | some (scheme, rest) =>
    if webSchemes.contains scheme then
      hasAuthority true (rest.dropWhile fun character => character = '/' || character = '\\')
    else if scheme = "file".toList then isFileLocation rest
    else
      match rest with
      | '/' :: '/' :: rest => hasAuthority false rest
      | _ => true

end Http
end LearningIndex
