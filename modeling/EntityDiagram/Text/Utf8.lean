import EntityDiagram.Text.Quoted

/-!
# UTF-8

Bytes are decoded strictly. The first sequence that is no character is reported with the bytes that
belong to it: a byte that starts no character, a character that a wrong byte interrupts (the bytes
before the wrong one), or a character that the end of the text interrupts (all bytes to the end).

Overlong forms, surrogates and numbers above U+10FFFF are excluded by the range of the second byte.
A text is encoded strictly, too: a surrogate has no bytes, and the first run of surrogates is reported.
-/

namespace EntityDiagram.Text.Utf8

/-- Why bytes are no character. -/
inductive Reason where
  | startByte
  | continuationByte
  | endOfData
  deriving DecidableEq, Repr

/-- The first bytes that are no character: the position of the first one, its value, and how many
there are. -/
structure DecodeError where
  position : Nat
  byte : UInt8
  count : Nat
  reason : Reason
  deriving DecidableEq, Repr

/-- A byte that continues a character. -/
def isContinuation (b : UInt8) : Bool :=
  decide (0x80 ≤ b) && decide (b ≤ 0xBF)

/-- How many bytes a character has that starts with a byte; nothing where none does. -/
def length? (b : UInt8) : Option Nat :=
  if b < 0x80 then some 1
  else if b < 0xC2 then none
  else if b < 0xE0 then some 2
  else if b < 0xF0 then some 3
  else if b < 0xF5 then some 4
  else none

/-- Whether a byte may stand behind the first byte of a character. -/
def isSecond (first b : UInt8) : Bool :=
  isContinuation b &&
    (if first = 0xE0 then decide (0xA0 ≤ b)
      else if first = 0xED then decide (b < 0xA0)
      else if first = 0xF0 then decide (0x90 ≤ b)
      else if first = 0xF4 then decide (b < 0x90)
      else true)

/-- How many of the bytes behind a first byte belong to a character that needs so many of them, and
whether the byte behind these is a wrong one. -/
def matched (first : UInt8) (needed : Nat) (rest : List UInt8) : Nat × Bool :=
  let candidates := rest.take needed
  match candidates with
  | [] => (0, false)
  | second :: others =>
    if isSecond first second then
      let good := (others.takeWhile isContinuation).length
      (good + 1, good < others.length)
    else (0, true)

/-- The bits that the first byte of a character of a length gives to its code point. -/
def leadBits (length : Nat) (b : UInt8) : Nat :=
  match length with
  | 1 => b.toNat
  | 2 => b.toNat % 32
  | 3 => b.toNat % 16
  | _ => b.toNat % 8

/-- The character that bytes stand for. -/
def character (first : UInt8) (others : List UInt8) : Char :=
  Char.ofNat (others.foldl (fun total b => total * 64 + b.toNat % 64)
    (leadBits (others.length + 1) first))

/-- The characters of the bytes from a position on. The bound is the number of bytes. -/
def decodeFrom : Nat → Nat → List UInt8 → Except DecodeError (List Char)
  | _, _, [] => .ok []
  | 0, _, _ => .ok []
  | bound + 1, position, first :: rest =>
    match length? first with
    | none => .error ⟨position, first, 1, .startByte⟩
    | some length =>
      let (good, wrong) := matched first (length - 1) rest
      if good = length - 1 then
        match decodeFrom bound (position + length) (rest.drop (length - 1)) with
        | .ok more => .ok (character first (rest.take (length - 1)) :: more)
        | .error e => .error e
      else if wrong then .error ⟨position, first, good + 1, .continuationByte⟩
      else .error ⟨position, first, rest.length + 1, .endOfData⟩

/-- The characters that bytes stand for. -/
def decode (bytes : List UInt8) : Except DecodeError (List Char) :=
  decodeFrom bytes.length 0 bytes

/-- Surrogates in a text, which have no bytes: the position of the first one, and all that stand there
in a row. -/
structure EncodeError where
  position : Nat
  surrogates : List Character
  deriving DecidableEq, Repr

/-- The bytes of characters from a position on. -/
def encodeFrom : Nat → List Character → Except EncodeError (List UInt8)
  | _, [] => .ok []
  | position, .scalar c :: rest => (encodeFrom (position + 1) rest).map (String.utf8EncodeChar c ++ ·)
  | position, .surrogate index :: rest =>
    .error ⟨position, .surrogate index :: rest.takeWhile Character.isSurrogate⟩

/-- The bytes of a text. -/
def encode (text : Text) : Except EncodeError (List UInt8) :=
  encodeFrom 0 text.toList

/-- The bytes of a string. -/
def bytes (string : String) : List UInt8 :=
  string.toList.flatMap String.utf8EncodeChar

theorem encodeFrom_scalars
    (position : Nat) (cs : List Char) :
    encodeFrom position (scalars cs) = .ok (cs.flatMap String.utf8EncodeChar) := by
  induction cs generalizing position with
  | nil => rfl
  | cons c rest ih =>
    rw [scalars_cons, encodeFrom, ih, List.flatMap_cons]
    rfl

/-- A string has bytes. -/
theorem encode_ofString
    (string : String) :
    encode string = .ok (bytes string) :=
  encodeFrom_scalars 0 string.toList

theorem exists_encodeFrom_eq_error
    {cs : List Character} (h : scalars? cs = none) (position : Nat) :
    ∃ error, encodeFrom position cs = .error error := by
  induction cs generalizing position with
  | nil => cases h
  | cons c rest ih =>
    cases c with
    | scalar c =>
      rw [scalars?, Option.map_eq_none_iff] at h
      obtain ⟨error, herror⟩ := ih h (position + 1)
      exact ⟨error, by rw [encodeFrom, herror]; rfl⟩
    | surrogate index => exact ⟨_, rfl⟩

/-- A text that is no string has none. -/
theorem exists_encode_eq_error
    {text : Text} (h : text.string? = none) :
    ∃ error, encode text = .error error :=
  exists_encodeFrom_eq_error (Option.map_eq_none_iff.mp h) 0

/-- The reason in words. -/
def Reason.message : Reason → String
  | startByte => "invalid start byte"
  | continuationByte => "invalid continuation byte"
  | endOfData => "unexpected end of data"

/-- A byte as two hexadecimal digits. -/
def hexByte (b : UInt8) : String :=
  let digits := Nat.toDigits 16 b.toNat
  String.ofList (List.replicate (2 - digits.length) '0' ++ digits)

/-- The error in words. -/
def DecodeError.message (e : DecodeError) : String :=
  let place :=
    if e.count = 1 then
      "byte 0x" ++ hexByte e.byte ++ " in position " ++ toString e.position
    else
      "bytes in position " ++ toString e.position ++ "-" ++ toString (e.position + e.count - 1)
  "'utf-8' codec can't decode " ++ place ++ ": " ++ e.reason.message

/-- The error in words. -/
def EncodeError.message (e : EncodeError) : String :=
  let place :=
    match e.surrogates with
    | [single] => "character '" ++ escaped (ofList [single]) ++ "' in position " ++ toString e.position
    | _ =>
      "characters in position " ++ toString e.position ++ "-" ++
        toString (e.position + e.surrogates.length - 1)
  "'utf-8' codec can't encode " ++ place ++ ": surrogates not allowed"

/-- A text in which a carriage return, with a line feed behind it or not, is a line feed. -/
def unifyLines : List Char → List Char
  | [] => []
  | '\r' :: '\n' :: rest => '\n' :: unifyLines rest
  | c :: rest => (if c = '\r' then '\n' else c) :: unifyLines rest

end EntityDiagram.Text.Utf8
