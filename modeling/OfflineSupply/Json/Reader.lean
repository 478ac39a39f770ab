import OfflineSupply.Json.Basic
import OfflineSupply.Json.Error
import OfflineSupply.Text.Digit

/-!
# Reading JSON

A reader takes a text and gives what stands at its front with the rest of the text, or the
rest at which it stopped and why.  The rest is always shorter than the text, which is why
reading ends; the place of a stop is the length of the text less the length of the rest.
Texts may hold no control character.  The two escaped halves of a code point above `U+FFFF`
are joined, and a half that stands alone is kept.

Nesting has no limit here.  A document of YAML may hold itself, so what follows it stops at some
depth; a text is finite, and how many brackets a machine can open in it depends on the calls
that are already open and not on the text.
-/

namespace OfflineSupply.Json

/-- Why and before which rest of the text a reader stopped. -/
inductive Stop where
  | fault (fault : Fault) (rest : List Char)
  | tooLong (digits : Nat)

/-- What stands at the front of a text of length `n`, with the rest. -/
structure Parsed (α : Type) (n : Nat) where
  value : α
  rest : List Char
  shorter : rest.length < n

/-- The white space between two tokens. -/
def isGap (c : Char) : Bool :=
  c = ' ' || c = '\t' || c = '\n' || c = '\r'

/-- The text behind white space. -/
def skipGap (cs : List Char) : List Char :=
  cs.dropWhile isGap

theorem length_dropWhile_le {α : Type} (p : α → Bool) (l : List α) :
    (l.dropWhile p).length ≤ l.length := by
  induction l with
  | nil => simp
  | cons a l ih =>
    rw [List.dropWhile_cons]
    split
    · exact Nat.le_succ_of_le ih
    · exact Nat.le_refl _

theorem length_skipGap_le (cs : List Char) : (skipGap cs).length ≤ cs.length :=
  length_dropWhile_le isGap cs

/-- The number written by four digits of base sixteen. -/
def hexCode? (a b c d : Char) : Option Nat :=
  if [a, b, c, d].all Text.isHexDigit then some (Text.digitsValue 16 [a, b, c, d]) else none

/-- The character that a letter after a backslash stands for. -/
def letterEscape? (c : Char) : Option Char :=
  match c with
  | '\x22' => some '\x22'
  | '\\' => some '\\'
  | '/' => some '/'
  | 'b' => some '\x08'
  | 'f' => some '\x0c'
  | 'n' => some '\n'
  | 'r' => some '\r'
  | 't' => some '\t'
  | _ => none

/-- A second escaped code point at the front of a text that goes on after it.  Four characters
that are no digits are a fault even though the second one is optional. -/
def secondPoint? (cs : List Char) :
    Except Stop (Option (CodePoint × { r : List Char // r.length < cs.length })) :=
  match cs with
  | '\\' :: 'u' :: a :: b :: c :: d :: e :: rest =>
    match hexCode? a b c d with
    | none => .error (.fault .malformedCode ('u' :: a :: b :: c :: d :: e :: rest))
    | some n => .ok (some (.ofNat n, ⟨e :: rest, by simp⟩))
  | _ => .ok none

/-- The code point that is written after a backslash; `start` is the text from the opening
quote. -/
def readEscape (start cs : List Char) : Except Stop (Parsed CodePoint cs.length) :=
  match cs with
  | [] => .error (.fault .unterminatedText start)
  | 'u' :: a :: b :: c :: d :: e :: rest =>
    match hexCode? a b c d with
    | none => .error (.fault .malformedCode ('u' :: a :: b :: c :: d :: e :: rest))
    | some n =>
      let p := CodePoint.ofNat n
      if p.isFirstHalf then do
        match ← secondPoint? (e :: rest) with
        | some (q, ⟨after, h⟩) =>
          match p.join? q with
          | some joined => .ok ⟨.char joined, after, by simp at h ⊢; omega⟩
          | none => .ok ⟨p, e :: rest, by simp⟩
        | none => .ok ⟨p, e :: rest, by simp⟩
      else .ok ⟨p, e :: rest, by simp⟩
  | 'u' :: rest => .error (.fault .malformedCode ('u' :: rest))
  | c :: rest =>
    match letterEscape? c with
    | some d => .ok ⟨.char d, rest, by simp⟩
    | none => .error (.fault .unknownEscape ('\\' :: c :: rest))

/-- The text up to the closing quote, after the reversed code points `done`; `start` is the text
from the opening quote. -/
def readText (start : List Char) (done : List CodePoint) (cs : List Char) :
    Except Stop (Parsed RawText cs.length) :=
  match cs with
  | [] => .error (.fault .unterminatedText start)
  | c :: rest =>
    if c = '\x22' then .ok ⟨{ points := done.reverse }, rest, by simp⟩
    else if c = '\\' then
      match readEscape start rest with
      | .error stop => .error stop
      | .ok escape =>
        match readText start (escape.value :: done) escape.rest with
        | .error stop => .error stop
        | .ok text =>
          .ok ⟨text.value, text.rest, by have := text.shorter; have := escape.shorter; simp; omega⟩
    else if c.toNat < 0x20 then .error (.fault .controlCharacter (c :: rest))
    else
      match readText start (.char c :: done) rest with
      | .error stop => .error stop
      | .ok text => .ok ⟨text.value, text.rest, by have := text.shorter; simp; omega⟩
termination_by cs.length
decreasing_by
  · have := escape.shorter; simp; omega
  · simp

/-- A number's parts: sign, digits before the point, digits after it, exponent. -/
structure NumberText where
  negative : Bool
  whole : List Char
  fraction : Option (List Char)
  exponent : Option (Bool × List Char)

/-- The digits at the front of a text. -/
def takeDigits (cs : List Char) : List Char := cs.takeWhile Text.isDigit

/-- The text behind digits. -/
def dropDigits (cs : List Char) : List Char := cs.dropWhile Text.isDigit

/-- The digits after a point, and the rest; without a digit the point is no part of the
number. -/
def readFraction (cs : List Char) : Option (List Char) × List Char :=
  match cs with
  | '.' :: rest =>
    if (takeDigits rest).isEmpty then (none, cs) else (some (takeDigits rest), dropDigits rest)
  | _ => (none, cs)

/-- A sign at the front of a text. -/
def readSign (cs : List Char) : Bool × List Char :=
  match cs with
  | '-' :: rest => (true, rest)
  | '+' :: rest => (false, rest)
  | _ => (false, cs)

/-- The exponent, and the rest; without a digit the letter is no part of the number. -/
def readExponent (cs : List Char) : Option (Bool × List Char) × List Char :=
  match cs with
  | c :: rest =>
    if c = 'e' || c = 'E' then
      let (negative, digits) := readSign rest
      if (takeDigits digits).isEmpty then (none, cs)
      else (some (negative, takeDigits digits), dropDigits digits)
    else (none, cs)
  | [] => (none, cs)

/-- The number at the front of a text: a zero alone or digits that begin with another one,
then a fraction and an exponent if they are there. -/
def readNumber (cs : List Char) : Option (NumberText × List Char) :=
  let (negative, body) := match cs with
    | '-' :: rest => (true, rest)
    | _ => (false, cs)
  let whole := match body with
    | '0' :: _ => ['0']
    | _ => takeDigits body
  if whole.isEmpty then none
  else
    let (fraction, rest) := readFraction (body.drop whole.length)
    let (exponent, rest) := readExponent rest
    some ({ negative, whole, fraction, exponent }, rest)

/-- The value of a number: whole numbers are exact, and have at most `digitLimit` digits. -/
def NumberText.value (t : NumberText) : Except Stop Json :=
  match t.fraction, t.exponent with
  | none, none =>
    if digitLimit < t.whole.length then .error (.tooLong t.whole.length)
    else
      let n : Int := Text.digitsValue 10 t.whole
      .ok (.integer (if t.negative then -n else n))
  | fraction, exponent =>
    let tail := fraction.getD []
    let shift : Int := match exponent with
      | none => 0
      | some (negative, digits) =>
        let n : Int := Text.digitsValue 10 digits
        if negative then -n else n
    .ok (.double (Double.ofDecimal t.negative (Text.digitsValue 10 (t.whole ++ tail))
      (shift - tail.length)))

/-- The words that are documents. -/
def wordValues : List (List Char × Json) :=
  [("null".toList, .null), ("true".toList, .bool true), ("false".toList, .bool false),
   ("NaN".toList, .double .notANumber), ("Infinity".toList, .double (.infinite false)),
   ("-Infinity".toList, .double (.infinite true))]

/-- A word or a number. -/
def readAtom (cs : List Char) : Except Stop (Parsed Json cs.length) :=
  match wordValues.find? fun word => word.1.isPrefixOf cs with
  | some (word, value) =>
    if h : (cs.drop word.length).length < cs.length then .ok ⟨value, cs.drop word.length, h⟩
    else .error (.fault .valueExpected cs)
  | none =>
    match readNumber cs with
    | none => .error (.fault .valueExpected cs)
    | some (number, rest) =>
      match number.value with
      | .error stop => .error stop
      | .ok value =>
        if h : rest.length < cs.length then .ok ⟨value, rest, h⟩
        else .error (.fault .valueExpected cs)

mutual

/-- The document at the front of a text. -/
def readValue (cs : List Char) : Except Stop (Parsed Json cs.length) :=
  match cs with
  | [] => .error (.fault .valueExpected [])
  | c :: tail =>
    if c = '\x22' then
      match readText (c :: tail) [] tail with
      | .error stop => .error stop
      | .ok text =>
        .ok ⟨.string text.value, text.rest, by have := text.shorter; simp; omega⟩
    else if c = '[' then
      have hskip := length_skipGap_le tail
      match hbody : skipGap tail with
      | ']' :: rest =>
        .ok ⟨.array [], rest, by rw [hbody] at hskip; simp at hskip ⊢; omega⟩
      | body =>
        match readItems body with
        | .error stop => .error stop
        | .ok items =>
          .ok ⟨.array items.value, items.rest, by
            have := items.shorter; rw [hbody] at hskip; simp; omega⟩
    else if c = '\x7b' then
      have hskip := length_skipGap_le tail
      match hbody : skipGap tail with
      | '\x7d' :: rest =>
        .ok ⟨.object [], rest, by rw [hbody] at hskip; simp at hskip ⊢; omega⟩
      | body =>
        match readMembers body with
        | .error stop => .error stop
        | .ok members =>
          .ok ⟨.object (putEntries [] members.value), members.rest, by
            have := members.shorter; rw [hbody] at hskip; simp; omega⟩
    else readAtom (c :: tail)
termination_by (cs.length, 0)
decreasing_by
  · rw [hbody] at hskip; rw [Prod.lex_def]; simp; omega
  · rw [hbody] at hskip; rw [Prod.lex_def]; simp; omega

/-- The items of a list up to its closing bracket. -/
def readItems (cs : List Char) : Except Stop (Parsed (List Json) cs.length) :=
  match readValue cs with
  | .error stop => .error stop
  | .ok item =>
    have hskip := length_skipGap_le item.rest
    match hrest : skipGap item.rest with
    | ']' :: rest =>
      .ok ⟨[item.value], rest, by
        have := item.shorter; rw [hrest] at hskip; simp at hskip; omega⟩
    | ',' :: rest =>
      have hnext := length_skipGap_le rest
      match readItems (skipGap rest) with
      | .error stop => .error stop
      | .ok items =>
        .ok ⟨item.value :: items.value, items.rest, by
          have := item.shorter; have := items.shorter
          rw [hrest] at hskip; simp at hskip; omega⟩
    | rest => .error (.fault .commaExpected rest)
termination_by (cs.length, 1)
decreasing_by
  · rw [Prod.lex_def]; simp
  · have := item.shorter; rw [hrest] at hskip; simp at hskip
    rw [Prod.lex_def]; simp; omega

/-- The members of an object up to its closing brace. -/
def readMembers (cs : List Char) : Except Stop (Parsed (List (RawText × Json)) cs.length) :=
  match cs with
  | '\x22' :: tail =>
    match readText ('\x22' :: tail) [] tail with
    | .error stop => .error stop
    | .ok name =>
      have hname := length_skipGap_le name.rest
      match hcolon : skipGap name.rest with
      | ':' :: afterColon =>
        have hgap := length_skipGap_le afterColon
        match readValue (skipGap afterColon) with
        | .error stop => .error stop
        | .ok member =>
          have hskip := length_skipGap_le member.rest
          match hrest : skipGap member.rest with
          | '\x7d' :: rest =>
            .ok ⟨[(name.value, member.value)], rest, by
              have := name.shorter; have := member.shorter
              rw [hcolon] at hname; rw [hrest] at hskip; simp at hname hskip ⊢; omega⟩
          | ',' :: rest =>
            have hnext := length_skipGap_le rest
            match readMembers (skipGap rest) with
            | .error stop => .error stop
            | .ok members =>
              .ok ⟨(name.value, member.value) :: members.value, members.rest, by
                have := name.shorter; have := member.shorter; have := members.shorter
                rw [hcolon] at hname; rw [hrest] at hskip; simp at hname hskip ⊢; omega⟩
          | rest => .error (.fault .commaExpected rest)
      | rest => .error (.fault .colonExpected rest)
  | rest => .error (.fault .nameExpected rest)
termination_by (cs.length, 1)
decreasing_by
  · have := name.shorter; rw [hcolon] at hname; simp at hname
    rw [Prod.lex_def]; simp; omega
  · have := name.shorter; have := member.shorter
    rw [hcolon] at hname; rw [hrest] at hskip; simp at hname hskip
    rw [Prod.lex_def]; simp; omega

end

/-- The error of a reader that stopped in a text. -/
def Stop.error (text : List Char) : Stop → Error
  | fault f rest => .malformed f (placeAt text (text.length - rest.length))
  | tooLong digits => .integerTooLong digits

/-- The one document that a text holds, between gaps. -/
def parseChars (cs : List Char) : Except Error Json :=
  match cs with
  | '\uFEFF' :: _ => .error (.malformed .byteOrderMark (placeAt cs 0))
  | _ =>
    match readValue (skipGap cs) with
    | .error stop => .error (stop.error cs)
    | .ok doc =>
      match skipGap doc.rest with
      | [] => .ok doc.value
      | rest => .error ((Stop.fault .extraText rest).error cs)

/-- The document that a text holds. -/
def parse (text : String) : Except Error Json :=
  parseChars text.toList

end OfflineSupply.Json
