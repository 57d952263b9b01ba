import GlobPattern.Text.Character
import GlobPattern.Workspace

/-!
# Document identifiers

A document is identified by a URI. A percent sign with two hexadecimal digits escapes a byte, and
identifiers that differ only in their escapes name the same document. Bytes that encode no character
read as U+FFFD, once for each longest stretch that some character begins with, and once for each
byte that none begins with.

Behind its scheme a URI can name an authority: what stands between two slashes and the path. A
bracket must have a counterpart, an address in brackets must be one that needs them, and no
character may stand for a delimiter in disguise.

* `Utf8.first`, `Utf8.step`, `Utf8.run`, `Utf8.decode`: a sequence of bytes, one after the other;
* `Uri.octets`, `Uri.documentName`: the bytes of an identifier, and what it names;
* `Address.isV4`, `Address.isV6`, `Address.isFuture`: the spellings of internet addresses;
* `Uri.authority`, `Uri.Fault`, `Uri.fault?`: why an identifier is refused;
* `Uri.workspace`: the workspace of documents under the names of their identifiers.
-/

namespace GlobPattern.Text.Utf8

/-! ## Lenient UTF-8 -/

/-- A character whose first bytes have been read: the number they make, how many are owed after
the next one, and the range that the next one has to be in. -/
structure Partial where
  value : Nat
  owed : Nat
  low : Nat
  high : Nat
  deriving DecidableEq, Repr, Inhabited

/-- What stands for bytes that encode nothing. -/
def replacement : Char := '\ufffd'

/-- The byte can come next. -/
def Partial.accepts (p : Partial) (b : Nat) : Bool := p.low ≤ b && b ≤ p.high

/-- The character with one byte more. -/
def Partial.push (p : Partial) (b : Nat) : List Char × Option Partial :=
  let value := 64 * p.value + b % 64
  match p.owed with
  | 0 => ([Char.ofNat value], none)
  | k + 1 => ([], some ⟨value, k, 0x80, 0xbf⟩)

/-- A byte between characters: a character of its own, the beginning of one, or neither. -/
def first (b : Nat) : List Char × Option Partial :=
  if b < 0x80 then ([Char.ofNat b], none)
  else if 0xc2 ≤ b ∧ b ≤ 0xdf then ([], some ⟨b % 32, 0, 0x80, 0xbf⟩)
  else if 0xe0 ≤ b ∧ b ≤ 0xef then
    ([], some ⟨b % 16, 1, if b = 0xe0 then 0xa0 else 0x80, if b = 0xed then 0x9f else 0xbf⟩)
  else if 0xf0 ≤ b ∧ b ≤ 0xf4 then
    ([], some ⟨b % 8, 2, if b = 0xf0 then 0x90 else 0x80, if b = 0xf4 then 0x8f else 0xbf⟩)
  else ([replacement], none)

/-- A byte behind what was read. One that does not continue a character ends it early. -/
def step : Option Partial → Nat → List Char × Option Partial
  | none, b => first b
  | some p, b =>
    if p.accepts b then p.push b else (replacement :: (first b).1, (first b).2)

/-- Bytes behind what was read. -/
def run : Option Partial → List Nat → List Char
  | none, [] => []
  | some _, [] => [replacement]
  | p?, b :: r => (step p? b).1 ++ run (step p? b).2 r

/-- The characters that bytes stand for. -/
def decode (bytes : List Nat) : List Char := run none bytes

end GlobPattern.Text.Utf8

namespace GlobPattern.Uri

/-! ## Names -/

/-- The bytes of a character. -/
def charOctets (c : Char) : List Nat := (String.utf8EncodeChar c).map UInt8.toNat

/-- The bytes of a text in which each escape is the byte it stands for. A percent sign without two
hexadecimal digits behind it is no escape. -/
def octets : List Char → List Nat
  | '%' :: a :: b :: r =>
    if Text.isHexDigit a && Text.isHexDigit b then
      (16 * Text.hexValue a + Text.hexValue b) :: octets r
    else charOctets '%' ++ octets (a :: b :: r)
  | c :: r => charOctets c ++ octets r
  | [] => []

/-- The name of the document that an identifier stands for. -/
def documentName (uri : String) : String := String.ofList (Text.Utf8.decode (octets uri.toList))

end GlobPattern.Uri

namespace GlobPattern.Uri.Address

/-! ## Internet addresses -/

/-- The fields of a text between separators. -/
def fields (separator : Char) (s : List Char) : List (List Char) :=
  s.foldr (fun c fs =>
    if c = separator then [] :: fs else (c :: fs.headD []) :: fs.drop 1) [[]]

/-- A decimal number up to 255 without needless zeros. -/
def isOctet (s : List Char) : Bool :=
  !s.isEmpty && s.all Char.isDigit && s.length ≤ 3 && (s.head? != some '0' || s == ['0']) &&
    s.foldl (fun n c => 10 * n + (c.toNat - 48)) 0 ≤ 255

/-- Four numbers with points between them. -/
def isV4 (s : List Char) : Bool := (fields '.' s).length == 4 && (fields '.' s).all isOctet

/-- A group of one to four hexadecimal digits. -/
def isGroup (s : List Char) : Bool := !s.isEmpty && s.length ≤ 4 && s.all Text.isHexDigit

/-- Eight groups, or fewer with one place where groups are left out. A group that is missing at
either end is missing at that place. -/
def areGroups (gs : List (List Char)) : Bool :=
  let inner := (gs.drop 1).dropLast
  let given := gs.filter fun g => !g.isEmpty
  given.all isGroup &&
    match inner.count [] with
    | 0 => gs.length == 8 && given.length == 8
    | 1 => given.length ≤ 7 && (gs.head? != some [] || inner.head? == some []) &&
        (gs.getLast? != some [] || inner.getLast? == some [])
    | _ => false

/-- The groups with an address of four numbers at the end as two groups. -/
def unfoldTail? (gs : List (List Char)) : Option (List (List Char)) :=
  match gs.getLast? with
  | some last =>
    if '.' ∈ last then if isV4 last then some (gs.dropLast ++ [['0'], ['0']]) else none
    else some gs
  | none => none

/-- Groups with colons between them, and perhaps the name of a zone behind a percent sign. -/
def isV6 (s : List Char) : Bool :=
  let zone := s.dropWhile (· != '%')
  (zone.isEmpty || (1 < zone.length && '%' ∉ zone.drop 1)) &&
    ((unfoldTail? (fields ':' (s.takeWhile (· != '%')))).any areGroups)

/-- The mark `v` with a version, a point and something behind it. -/
def isFuture : List Char → Bool
  | 'v' :: r =>
    let rest := r.dropWhile Text.isHexDigit
    rest.length < r.length && rest.head? == some '.' && 1 < rest.length
  | _ => false

end GlobPattern.Uri.Address

namespace GlobPattern.Uri

/-! ## Authorities -/

/-- Without blanks and control characters in front, and without tabs and line breaks anywhere. -/
def trim (s : List Char) : List Char :=
  (s.dropWhile fun c => c.toNat ≤ 0x20).filter fun c => c != '\t' && c != '\r' && c != '\n'

/-- A character of a scheme. -/
def isSchemeChar (c : Char) : Bool := c.isAlphanum || c == '+' || c == '-' || c == '.'

/-- What stands behind the scheme, which begins with a letter and ends with a colon. -/
def afterScheme (s : List Char) : List Char :=
  match s.dropWhile isSchemeChar with
  | ':' :: r => if s.head?.any Char.isAlpha then r else s
  | _ => s

/-- A character that ends an authority. -/
def isDelimiter (c : Char) : Bool := c == '/' || c == '?' || c == '#'

/-- The authority of an identifier. -/
def authority (s : List Char) : List Char :=
  match afterScheme (trim s) with
  | '/' :: '/' :: r => r.takeWhile (!isDelimiter ·)
  | _ => []

/-! ## Faults -/

/-- Why an identifier is refused. -/
inductive Fault where
  | brackets
  | noAddress (host : List Char)
  | plainAddress
  | futureAddress
  | disguise (authority : List Char)
  deriving DecidableEq, Repr

/-- The wording of a fault. -/
def Fault.message : Fault → String
  | brackets => "Invalid IPv6 URL"
  | noAddress host =>
    String.ofList (Text.quoted host) ++ " does not appear to be an IPv4 or IPv6 address"
  | plainAddress => "An IPv4 address cannot be in brackets"
  | futureAddress => "IPvFuture address is invalid"
  | disguise authority =>
    "netloc '" ++ String.ofList authority ++ "' contains invalid characters under NFKC normalization"

/-- What is wrong with a host in brackets. -/
def hostFault? (host : List Char) : Option Fault :=
  if host.head? = some 'v' then if Address.isFuture host then none else some .futureAddress
  else if Address.isV4 host then some .plainAddress
  else if Address.isV6 host then none
  else some (.noAddress host)

/-- What is wrong with the brackets of an authority. -/
def bracketFault? (authority : List Char) : Option Fault :=
  if '[' ∉ authority ∧ ']' ∉ authority then none
  else if '[' ∉ authority ∨ ']' ∉ authority then some .brackets
  else hostFault? (((authority.dropWhile (· != '[')).drop 1).takeWhile (· != ']'))

/-- The characters that are compatible with texts in which a slash, a question mark, a number
sign, a commercial at or a colon occurs. -/
def disguises : List Nat :=
  [0x2047, 0x2048, 0x2049, 0x2100, 0x2101, 0x2105, 0x2106, 0x2a74, 0xfe13, 0xfe16, 0xfe55, 0xfe56,
    0xfe5f, 0xfe6b, 0xff03, 0xff0f, 0xff1a, 0xff1f, 0xff20]

/-- What is wrong with an identifier. -/
def fault? (uri : String) : Option Fault :=
  let a := authority uri.toList
  match bracketFault? a with
  | some f => some f
  | none => if a.any (·.toNat ∈ disguises) then some (.disguise a) else none

/-- The workspace that keeps documents under the names of their identifiers. -/
def workspace : Workspace (List (String × List Char)) (Workspace.Unkept Fault) :=
  .keeping documentName fault?

end GlobPattern.Uri
