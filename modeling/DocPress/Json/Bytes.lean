import DocPress.Json.Located

/-!
JSON in bytes. Bytes that are no text in UTF-8 are not JSON, and it matters where that is noticed: in a
string of JSON at its end, elsewhere where the byte is.
-/

namespace DocPress.Json

/-- The text with a character for each byte, the same one for all bytes beyond ASCII. -/
def maskedText (bytes : List UInt8) : List Char :=
  bytes.map fun byte => if byte < 128 then Char.ofNat byte.toNat else '\x7f'

/-- The length of the longest start of bytes that is text. -/
def textLength (bytes : List UInt8) : Nat :=
  let isText (count : Nat) : Bool := (String.fromUTF8? ⟨(bytes.take count).toArray⟩).isSome
  ((List.range (bytes.length + 1)).reverse.find? isText).getD 0

/-- The number of characters up to the end of the string that a text starts within. -/
def stringLength : List Char → Nat
  | [] => 0
  | '"' :: _ => 1
  | '\\' :: _ :: rest => stringLength rest + 2
  | _ :: rest => stringLength rest + 1

/-- Whether a fault is noticed within a string. -/
def Fault.isInString (fault : Fault) : Bool :=
  [Fault.endInString, .badEscape, .controlCharacter, .loneSurrogate, .unfinishedSurrogates].contains
    fault

/-- The first fault in a text, if it is within a string. -/
def stringBreak? (text : List Char) : Option Break :=
  match parse (String.ofList text) with
  | .error reason => if reason.fault.isInString then some reason else none
  | .ok _ => none

/-- Why bytes that are no text are not JSON. -/
def brokenBytes (bytes : List UInt8) : Break :=
  let text := maskedText bytes
  let count := textLength bytes
  match (stringBreak? (text.take count)).map (·.fault) with
  | some Fault.endInString =>
    let before := text.take (count + stringLength (text.drop count))
    (stringBreak? before).getD ⟨.invalidCodePoint, before.foldl Place.after .start⟩
  | _ =>
    match parse (String.ofList text) with
    | .error reason => reason
    | .ok _ => ⟨.invalidCodePoint, text.foldl Place.after .start⟩

end DocPress.Json
