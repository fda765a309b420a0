import PeerProtocol.Ip
import PeerProtocol.Text.Decimal
import PeerProtocol.Text.Hex

/-!
# Text of internet addresses

Version 4 in dotted decimal. Version 6 in hexadecimal groups without leading zeros, where the
longest run of at least two zero groups, the first of equals, is left out; only an address that
embeds a version 4 address ends in dotted decimal. Reading takes the usual other spellings of
version 6 as well.
-/

namespace PeerProtocol

namespace IpAddress

/-- Four octets in dotted decimal. -/
def dotted (octets : Bytes) : String :=
  String.intercalate "." (octets.map fun octet => toString octet.toNat)

/-- The sixteen-bit groups of a byte string. -/
def groups : Bytes → List Nat
  | high :: low :: rest => (256 * high.toNat + low.toNat) :: groups rest
  | _ => []

/-- The length of the run of zeros at the front. -/
def zeroRun (values : List Nat) : Nat :=
  (values.takeWhile (· = 0)).length

/-- Start and length of the longest run of zeros, the first of equals, among the runs that start
at `index` or later. -/
def longestZeroRun (index : Nat) : List Nat → Nat × Nat
  | [] => (index, 0)
  | value :: rest =>
      let later := longestZeroRun (index + 1) rest
      let here := zeroRun (value :: rest)
      if later.2 ≤ here then (index, here) else later

/-- Groups in hexadecimal with colons between them. -/
def colonText (values : List Nat) : String :=
  String.intercalate ":" (values.map Text.hexNumber)

/-- Eight groups in their shortest spelling. -/
def groupsText (values : List Nat) : String :=
  let run := longestZeroRun 0 values
  if run.2 < 2 then colonText values
  else colonText (values.take run.1) ++ "::" ++ colonText (values.drop (run.1 + run.2))

/-- The text of an address. -/
def text : IpAddress → String
  | v4 octets => dotted octets.bytes
  | v6 octets =>
      match mapped? octets with
      | some inner => "::ffff:" ++ dotted inner.bytes
      | none => groupsText (groups octets.bytes)

/-- One number of a dotted text: one to three digits without a leading zero, at most 255. -/
def octet? (digits : List Char) : Option UInt8 :=
  match digits with
  | [] => none
  | '0' :: _ :: _ => none
  | _ =>
      if 3 < digits.length then none
      else do
        let value ← Text.digitsValue? 256 0 digits
        if value < 256 then some (UInt8.ofNat value) else none

/-- The pieces of a text between the occurrences of a separator. -/
def pieces (separator : Char) : List Char → List (List Char)
  | [] => [[]]
  | c :: rest =>
      if c = separator then [] :: pieces separator rest
      else match pieces separator rest with
        | [] => [[c]]
        | piece :: others => (c :: piece) :: others

/-- The octets of a text in dotted decimal. -/
def dotted? (text : List Char) : Option Bytes := do
  let octets ← (pieces '.' text).mapM octet?
  if octets.length = 4 then some octets else none

/-- One group: one to four hexadecimal digits. -/
def group? (digits : List Char) : Option Bytes := do
  let values ← digits.mapM Text.hexValue?
  if digits.isEmpty ∨ 4 < digits.length then none
  else some (Bytes.bigEndian 2 (values.foldl (16 * · + ·) 0))

/-- The octets of groups between colons, the last of which may be in dotted decimal. -/
def groupOctets? (dottedAllowed : Bool) : List (List Char) → Option Bytes
  | [] => some []
  | [last] => if dottedAllowed ∧ last.contains '.' then dotted? last else group? last
  | group :: rest => do
      let front ← group? group
      let back ← groupOctets? dottedAllowed rest
      some (front ++ back)

/-- The octets of the groups in a side of a compressed text, which may be empty. -/
def sideOctets? (dottedAllowed : Bool) (side : List Char) : Option Bytes :=
  if side.isEmpty then some [] else groupOctets? dottedAllowed (pieces ':' side)

/-- The text before and after the first double colon. -/
def splitDoubleColon : List Char → Option (List Char × List Char)
  | ':' :: ':' :: rest => some ([], rest)
  | [] => none
  | c :: rest => (splitDoubleColon rest).map fun (front, back) => (c :: front, back)

/-- The address of a version 6 text. -/
def parseV6? (text : List Char) : Option IpAddress := do
  let octets ← match splitDoubleColon text with
    | none => groupOctets? true (pieces ':' text)
    | some (front, back) => do
        let front ← sideOctets? false front
        let back ← sideOctets? true back
        if front.length + back.length ≤ 14 then
          some (front ++ List.replicate (16 - front.length - back.length) 0 ++ back)
        else none
  (Octets.ofBytes? 16 octets).map v6

/-- The address of a version 4 text. -/
def parseV4? (text : List Char) : Option IpAddress := do
  let octets ← dotted? text
  (Octets.ofBytes? 4 octets).map v4

/-- The address of a text. -/
def parse? (text : String) : Option IpAddress :=
  match parseV4? text.toList with
  | some address => some address
  | none => parseV6? text.toList

end IpAddress

namespace SocketAddress

/-- An address and a port as one text; version 6 stands in brackets. -/
def text (address : SocketAddress) : String :=
  match address.ip with
  | .v4 _ => address.ip.text ++ ":" ++ toString address.port.toNat
  | .v6 _ => "[" ++ address.ip.text ++ "]:" ++ toString address.port.toNat

/-- A port number: digits alone. -/
def port? (text : List Char) : Option UInt16 := do
  if text.isEmpty then none
  else do
    let value ← Text.digitsValue? 65536 0 text
    if value < 65536 then some (UInt16.ofNat value) else none

/-- Whether the text after a version 6 address is nothing or a zone, a number of 32 bits after a
percent sign. A socket address does not keep the zone. -/
def isZone : List Char → Bool
  | [] => true
  | '%' :: digits =>
      !digits.isEmpty && (Text.digitsValue? UInt32.size 0 digits).any (· < UInt32.size)
  | _ => false

/-- The address in brackets, with a zone or without. -/
def bracketed? (text : List Char) : Option IpAddress :=
  let host := text.takeWhile (· ≠ '%')
  if isZone (text.drop host.length) then IpAddress.parseV6? host else none

/-- The address and port of a text. -/
def parse? (text : String) : Option SocketAddress :=
  match text.toList with
  | '[' :: rest => do
      let host := rest.takeWhile (· ≠ ']')
      let address ← bracketed? host
      match rest.drop host.length with
      | ']' :: ':' :: port => (port? port).map fun port => ⟨address, port⟩
      | _ => none
  | chars => do
      let host := chars.takeWhile (· ≠ ':')
      let address ← IpAddress.parseV4? host
      match chars.drop host.length with
      | ':' :: port => (port? port).map fun port => ⟨address, port⟩
      | _ => none

end SocketAddress

end PeerProtocol
