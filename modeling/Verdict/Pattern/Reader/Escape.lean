import Verdict.Pattern.Reader.Bracket

/-!
# Escapes and counts

A backslash takes the meaning from a character that has one and gives one to some letters. A letter
without a meaning behind a backslash is no escape, nor is a digit: there is no reference to a group.
Braces hold the bounds of a repetition, or the name of an edge behind `\b`.
-/

namespace Verdict.Pattern

open Verdict.Text

/-! ## 1. Escapes -/

/-- What an escape stands for. -/
inductive Escaped
  | char (c : Char)
  | cls (set : CharSet)
  | edge (edge : Edge)

/-- What a backslash before `c` stands for, where `c` alone decides it: a class, an edge, a control
    character, or an ASCII character that is no letter, no digit and no angle bracket. -/
def escaped? (c : Char) : Option Escaped :=
  match c with
  | 'd' => some (.cls .digit)
  | 'D' => some (.cls (.complement .digit))
  | 's' => some (.cls .blank)
  | 'S' => some (.cls (.complement .blank))
  | 'w' => some (.cls .word)
  | 'W' => some (.cls (.complement .word))
  | 'a' => some (.char '\x07')
  | 'f' => some (.char '\x0C')
  | 't' => some (.char '\t')
  | 'n' => some (.char '\n')
  | 'r' => some (.char '\r')
  | 'v' => some (.char '\x0B')
  | 'A' => some (.edge .textStart)
  | 'z' => some (.edge .textEnd)
  | 'b' => some (.edge .wordBoundary)
  | 'B' => some (.edge .noWordBoundary)
  | '<' => some (.edge .wordStart)
  | '>' => some (.edge .wordEnd)
  | c => if c.toNat < 128 && !c.isAlphanum then some (.char c) else none

namespace State

/-- An escape delivered where it belongs. An edge is no member of a set. -/
def deliver (s : State) (target : Target) (e : Escaped) : Option State :=
  match target with
  | .pattern =>
    match e with
    | .char c => some (s.push (s.literal c) 0)
    | .cls set => some (s.push (.chars set) 0)
    | .edge .wordBoundary => some { s.push (.edge .wordBoundary) 0 with mode := .items .boundary }
    | .edge edge => some (s.push (.edge edge) 0)
  | .set inner outer first =>
    let item? : Option SetItem :=
      match e with
      | .char c => some (.char c)
      | .cls set => some (.cls { set := set })
      | .edge _ => none
    item?.bind fun item =>
      match first with
      | none => some (s.inSet inner outer (.after item))
      | some first => s.closeRange inner outer first item

/-- The character after a backslash. -/
def stepEscape (s : State) (target : Target) (c : Char) : Option State :=
  match c with
  | 'x' => some { s with mode := .hexStart target 2 }
  | 'u' => some { s with mode := .hexStart target 4 }
  | 'U' => some { s with mode := .hexStart target 8 }
  | c => (escaped? c).bind (s.deliver target)

/-- A character given by its code, if there is one with that code. -/
def deliverCode (s : State) (target : Target) (code : Nat) : Option State :=
  if code.isValidChar then s.deliver target (.char (Char.ofNat code)) else none

end State

/-- The value of a hexadecimal digit. -/
def hexValue? (c : Char) : Option Nat :=
  if c.isDigit then some (c.toNat - '0'.toNat)
  else if 'a' ≤ c && c ≤ 'f' then some (c.toNat - 'a'.toNat + 10)
  else if 'A' ≤ c && c ≤ 'F' then some (c.toNat - 'A'.toNat + 10)
  else none

namespace State

/-- A digit of a code of fixed width. -/
def stepHexDigit (s : State) (target : Target) (left value : Nat) (c : Char) : Option State :=
  (hexValue? c).bind fun d =>
    let value := 16 * value + d
    if left ≤ 1 then s.deliverCode target value
    else some { s with mode := .hexDigits target (left - 1) value }

end State

/-! ## 2. Braces -/

/-- A whole number of 32 bits, with blanks around it. -/
def readCount? (cs : List Char) : Option Nat :=
  let digits := trim cs
  if digits.isEmpty || !digits.all Char.isDigit then none
  else
    let n := Nat.ofDigitChars 10 digits 0
    if n < 1 <<< 32 then some n else none

/-- The bounds of a counted repetition: a count, a count and a comma, or two counts in order. -/
def readBounds? (content : List Char) : Option (Nat × Option Nat) :=
  match content.dropWhile (· != ',') with
  | [] => (readCount? content).map fun n => (n, some n)
  | _ :: upper => do
    let least ← readCount? (content.takeWhile (· != ','))
    if upper.isEmpty then some (least, none)
    else
      let most ← readCount? upper
      if least ≤ most then some (least, some most) else none

/-- The edges with a name, which are written in braces after `\b`. -/
def namedEdge? (content : List Char) : Option Edge :=
  match String.ofList content with
  | "start" => some .wordStart
  | "end" => some .wordEnd
  | "start-half" => some .wordStartHalf
  | "end-half" => some .wordEndHalf
  | _ => none

/-- The closing brace: a repetition of the last item, or another edge in the place of `\b` if the
    content begins like a name. -/
def State.closeBraces (s : State) (content : List Char) (boundary : Bool) : Option State :=
  if boundary && content.head?.any (fun c => c.isAlpha || c == '-') then
    (namedEdge? content).map fun edge =>
      { s with
        frame := { s.frame with items := { node := .edge edge } :: s.frame.items.drop 1 }
        mode := .items .other }
  else
    (readBounds? content).bind fun bounds => s.repeatLast bounds.1 bounds.2 .counted

end Verdict.Pattern
