import PeerProtocol.Settings
import PeerProtocol.Text.Hex
import PeerProtocol.Text.Utf8

/-!
# Settings files

A settings file is TOML without tables: lines that hold nothing, a comment, or `key = value`, where
a key is one of the five settings and a value is a string, an integer or a truth value. Tables,
arrays, dates, fractions, unknown keys, repeated keys and values of the wrong kind or size make the
whole file void, and so does anything that is not TOML. Readers of a piece return the text after
it.
-/

namespace PeerProtocol.Settings

/-- A value in a settings file. -/
inductive Value where
  | string (text : String)
  | integer (value : Int)
  | boolean (value : Bool)
deriving DecidableEq, Repr

namespace Value

/-- Spaces and tabs. -/
def isBlank (c : Char) : Bool := c = ' ' || c = '\t'

/-- Characters that may stand in comments and strings: all but the controls, of which only the tab
may. -/
def isTextChar (c : Char) : Bool :=
  c = '\t' || (32 ≤ c.toNat && c.toNat ≠ 127)

/-- The text after leading spaces and tabs. -/
def skipBlank (chars : List Char) : List Char :=
  chars.dropWhile isBlank

/-- The value of a digit to a base of at most sixteen. -/
def digit? (base : Nat) (c : Char) : Option Nat :=
  (Text.hexValue? c).filter (· < base)

/-- The value of a run of hexadecimal digits alone. -/
def hexValue? (digits : List Char) : Option Nat :=
  (digits.mapM Text.hexValue?).map fun values => values.foldl (16 * · + ·) 0

/-- The character of a code point in `count` hexadecimal digits. -/
def codePoint? (count : Nat) (chars : List Char) : Option (Char × List Char) := do
  let digits := chars.take count
  if digits.length < count then none
  else do
    let value ← hexValue? digits
    if value.isValidChar then some (Char.ofNat value, chars.drop count) else none

/-- The character of an escape after its backslash. -/
def escape? : List Char → Option (Char × List Char)
  | 'b' :: rest => some ('\x08', rest)
  | 't' :: rest => some ('\t', rest)
  | 'n' :: rest => some ('\n', rest)
  | 'f' :: rest => some ('\x0c', rest)
  | 'r' :: rest => some ('\r', rest)
  | '"' :: rest => some ('"', rest)
  | '\\' :: rest => some ('\\', rest)
  | 'u' :: rest => codePoint? 4 rest
  | 'U' :: rest => codePoint? 8 rest
  | _ => none

/-- An escape consumes at least one character. -/
theorem length_lt_of_escape? {chars rest : List Char} {c : Char}
    (h : escape? chars = some (c, rest)) : rest.length < chars.length := by
  have hcode : ∀ {count : Nat} {tail : List Char},
      codePoint? count tail = some (c, rest) → rest.length < tail.length + 1 := by
    intro count tail h
    simp only [codePoint?] at h
    split at h
    · simp at h
    · simp only [Option.bind_eq_bind, Option.bind_eq_some_iff] at h
      obtain ⟨value, _, h⟩ := h
      split at h
      · simp only [Option.some.injEq, Prod.mk.injEq] at h
        simp only [← h.2, List.length_drop]
        omega
      · simp at h
  unfold escape? at h
  split at h
  case h_8 | h_9 => exact hcode h
  case h_10 => cases h
  all_goals
    obtain ⟨rfl, rfl⟩ := Prod.mk.inj (Option.some.inj h)
    exact Nat.lt_succ_self _

/-- A character before the text of a piece. -/
def push (c : Char) (piece : List Char × List Char) : List Char × List Char :=
  (c :: piece.1, piece.2)

/-- The rest of a string on one line with escapes. -/
def basicBody (chars : List Char) : Option (List Char × List Char) :=
  match chars with
  | [] => none
  | '"' :: rest => some ([], rest)
  | '\\' :: rest =>
    match h : escape? rest with
    | none => none
    | some (c, after) =>
      have : after.length < rest.length + 1 :=
        Nat.lt_succ_of_lt (length_lt_of_escape? h)
      (basicBody after).map (push c)
  | c :: rest => if isTextChar c then (basicBody rest).map (push c) else none
termination_by chars.length

/-- The rest of a string on one line without escapes. -/
def literalBody : List Char → Option (List Char × List Char)
  | [] => none
  | '\'' :: rest => some ([], rest)
  | c :: rest => if isTextChar c then (literalBody rest).map (push c) else none

/-- The text after a line break. -/
def lineBreak? : List Char → Option (List Char)
  | '\n' :: rest => some rest
  | '\r' :: '\n' :: rest => some rest
  | _ => none

/-- The text after all leading spaces, tabs and line breaks. -/
def skipSpace : List Char → List Char
  | '\r' :: '\n' :: rest => skipSpace rest
  | c :: rest => if isBlank c || c = '\n' then skipSpace rest else c :: rest
  | [] => []

/-- Skipping never lengthens the text. -/
theorem length_skipSpace_le (chars : List Char) : (skipSpace chars).length ≤ chars.length := by
  fun_induction skipSpace chars <;> simp_all <;> omega

/-- What follows a backslash at the end of a line, with the space before the next text skipped. -/
def lineContinuation? (chars : List Char) : Option (List Char) :=
  (lineBreak? (skipBlank chars)).map skipSpace

/-- A line continuation consumes at least one character. -/
theorem length_lt_of_lineContinuation? {chars rest : List Char}
    (h : lineContinuation? chars = some rest) : rest.length < chars.length := by
  simp only [lineContinuation?, Option.map_eq_some_iff] at h
  obtain ⟨after, hbreak, rfl⟩ := h
  have hblank : (skipBlank chars).length ≤ chars.length :=
    (List.dropWhile_sublist _).length_le
  have hskip := length_skipSpace_le after
  have hafter : after.length < (skipBlank chars).length := by
    unfold lineBreak? at hbreak
    split at hbreak
    case h_3 => cases hbreak
    all_goals
      next heq =>
        obtain rfl := Option.some.inj hbreak
        simp only [heq, List.length_cons]
        omega
  omega

/-- The rest of a string over several lines with escapes. Up to two quotes may stand before the
three that close it. -/
def multilineBasicBody (chars : List Char) : Option (List Char × List Char) :=
  match chars with
  | [] => none
  | '"' :: '"' :: '"' :: '"' :: '"' :: rest => some (['"', '"'], rest)
  | '"' :: '"' :: '"' :: '"' :: rest => some (['"'], rest)
  | '"' :: '"' :: '"' :: rest => some ([], rest)
  | '\\' :: rest =>
    match h : lineContinuation? rest with
    | some after =>
      have : after.length < rest.length + 1 :=
        Nat.lt_succ_of_lt (length_lt_of_lineContinuation? h)
      multilineBasicBody after
    | none =>
      match h : escape? rest with
      | none => none
      | some (c, after) =>
        have : after.length < rest.length + 1 :=
          Nat.lt_succ_of_lt (length_lt_of_escape? h)
        (multilineBasicBody after).map (push c)
  | '\r' :: '\n' :: rest => (multilineBasicBody rest).map (push '\n')
  | c :: rest =>
      if isTextChar c || c = '\n' then (multilineBasicBody rest).map (push c) else none
termination_by chars.length

/-- The rest of a string over several lines without escapes. -/
def multilineLiteralBody : List Char → Option (List Char × List Char)
  | [] => none
  | '\'' :: '\'' :: '\'' :: '\'' :: '\'' :: rest => some (['\'', '\''], rest)
  | '\'' :: '\'' :: '\'' :: '\'' :: rest => some (['\''], rest)
  | '\'' :: '\'' :: '\'' :: rest => some ([], rest)
  | '\r' :: '\n' :: rest => (multilineLiteralBody rest).map (push '\n')
  | c :: rest =>
      if isTextChar c || c = '\n' then (multilineLiteralBody rest).map (push c) else none

/-- The text after the line break that may follow opening quotes. -/
def skipFirstBreak (chars : List Char) : List Char :=
  (lineBreak? chars).getD chars

/-- A string in any of its four spellings. -/
def string? : List Char → Option (List Char × List Char)
  | '"' :: '"' :: '"' :: rest => multilineBasicBody (skipFirstBreak rest)
  | '\'' :: '\'' :: '\'' :: rest => multilineLiteralBody (skipFirstBreak rest)
  | '"' :: rest => basicBody rest
  | '\'' :: rest => literalBody rest
  | _ => none

/-- A number that is too large for every integer. -/
def tooLarge : Nat := UInt64.size

/-- More digits to a base, continuing from `high`; an underscore may stand between two. Every
number from `tooLarge` on is read as `tooLarge`. -/
def moreDigits (base high : Nat) : List Char → Nat × List Char
  | '_' :: c :: rest =>
    match digit? base c with
    | some digit => moreDigits base (min tooLarge (base * high + digit)) rest
    | none => (high, '_' :: c :: rest)
  | c :: rest =>
    match digit? base c with
    | some digit => moreDigits base (min tooLarge (base * high + digit)) rest
    | none => (high, c :: rest)
  | [] => (high, [])

/-- A number to a base, which begins with a digit. -/
def digits? (base : Nat) : List Char → Option (Nat × List Char)
  | [] => none
  | c :: rest => (digit? base c).map fun digit => moreDigits base digit rest

/-- A decimal number without a leading zero. -/
def decimal? : List Char → Option (Nat × List Char)
  | '0' :: rest => some (0, rest)
  | chars => digits? 10 chars

/-- An integer in any of its spellings. -/
def integer? : List Char → Option (Int × List Char)
  | '0' :: 'x' :: rest => (digits? 16 rest).map fun (value, rest) => (value, rest)
  | '0' :: 'o' :: rest => (digits? 8 rest).map fun (value, rest) => (value, rest)
  | '0' :: 'b' :: rest => (digits? 2 rest).map fun (value, rest) => (value, rest)
  | '+' :: rest => (decimal? rest).map fun (value, rest) => (value, rest)
  | '-' :: rest => (decimal? rest).map fun (value, rest) => (-value, rest)
  | chars => (decimal? chars).map fun (value, rest) => (value, rest)

/-- A value. Integers have 64 bits and a sign. -/
def parse? (chars : List Char) : Option (Value × List Char) :=
  match chars with
  | '"' :: _ | '\'' :: _ =>
      (string? chars).map fun (text, rest) => (string (String.ofList text), rest)
  | 't' :: 'r' :: 'u' :: 'e' :: rest => some (boolean true, rest)
  | 'f' :: 'a' :: 'l' :: 's' :: 'e' :: rest => some (boolean false, rest)
  | _ => do
      let (value, rest) ← integer? chars
      if -0x8000000000000000 ≤ value ∧ value < 0x8000000000000000 then
        some (integer value, rest)
      else none

/-- Characters of a key without quotes. -/
def isKeyChar (c : Char) : Bool :=
  c.isAlphanum || c = '_' || c = '-'

/-- A key, with or without quotes. -/
def key? (chars : List Char) : Option (String × List Char) :=
  match chars with
  | '"' :: rest => (basicBody rest).map fun (text, rest) => (String.ofList text, rest)
  | '\'' :: rest => (literalBody rest).map fun (text, rest) => (String.ofList text, rest)
  | _ =>
    let name := chars.takeWhile isKeyChar
    if name.isEmpty then none else some (String.ofList name, chars.drop name.length)

/-- The text after a comment, should one stand here. -/
def skipComment : List Char → List Char
  | '#' :: rest => rest.dropWhile isTextChar
  | chars => chars

/-- The text of the next line, if nothing but blanks and a comment is left of this one. -/
def lineEnd? (chars : List Char) : Option (List Char) :=
  match skipComment (skipBlank chars) with
  | [] => some []
  | rest => lineBreak? rest

/-- The setting that a line makes, if it makes one, and the text of the next line. -/
def line? (chars : List Char) : Option (Option (String × Value) × List Char) :=
  match lineEnd? chars with
  | some rest => some (none, rest)
  | none => do
      let (key, chars) ← key? (skipBlank chars)
      match skipBlank chars with
      | '=' :: chars => do
          let (value, chars) ← parse? (skipBlank chars)
          let rest ← lineEnd? chars
          some (some (key, value), rest)
      | _ => none

/-- The settings that at most `count` lines make, in order. -/
def lines? : (count : Nat) → List Char → Option (List (String × Value))
  | 0, chars => if chars.isEmpty then some [] else none
  | count + 1, chars =>
      if chars.isEmpty then some []
      else do
        let (entry, rest) ← line? chars
        let entries ← lines? count rest
        some (entry.toList ++ entries)

/-- The settings that a text makes, in order. Every line takes a character, so the text's length
bounds their number. -/
def entries? (text : String) : Option (List (String × Value)) :=
  let chars := match text.toList with
    | '\uFEFF' :: rest => rest
    | chars => chars
  lines? chars.length chars

end Value

/-- An integer that a field of a width can hold. -/
def natural? (bound : Nat) : Value → Option Nat
  | .integer value => if 0 ≤ value ∧ value < bound then some value.toNat else none
  | _ => none

/-- One setting of a file. -/
def set? (settings : Settings) : String × Value → Option Settings
  | ("network", .string name) => some { settings with network := name }
  | ("parse_retain", .boolean choice) => some { settings with retain := choice }
  | ("protocol_version", value) =>
      (natural? UInt32.size value).map fun value => { settings with version := UInt32.ofNat value }
  | ("connect_timeout_ms", value) =>
      (natural? UInt64.size value).map fun value =>
        { settings with connectTimeout := UInt64.ofNat value }
  | ("listen_port", value) =>
      (natural? UInt16.size value).map fun value =>
        { settings with listenPort := UInt16.ofNat value }
  | _ => none

/-- The settings of a file's text. -/
def ofText? (text : String) : Option Settings := do
  let entries ← Value.entries? text
  let settings ← entries.foldlM set? initial
  if (entries.map Prod.fst).Nodup then some settings else none

/-- The settings of a file's bytes, which must be UTF-8. -/
def ofFile? (content : Bytes) : Option Settings :=
  (Text.ofUtf8? content).bind ofText?

/-- The settings file below a home directory. -/
def homeFile (home : String) : String :=
  home ++ "/.config/btc-wire/config.toml"

/-- The settings of a run: those of the file that a variable names, else of the file below the home
directory, else the initial ones; then the overrides. A file that is missing or void counts as
none. -/
def load (lookup? : String → Option String) (file? : String → Option Bytes) : Settings :=
  let path? := match lookup? "BTC_WIRE_CONFIG" with
    | some path => some path
    | none => (lookup? "HOME").map homeFile
  (((path?.bind file?).bind ofFile?).getD initial).override lookup?

end PeerProtocol.Settings
