/-!
Reading texts from bytes.

Bytes that are no text are kept apart from the characters around them, in
pieces that are as long as the start of some character, so that a reader may
refuse them or put a replacement in their place.
-/
namespace CodeAtlas.Utf8

def isContinuation (b : UInt8) : Bool := 0x80 ≤ b && b ≤ 0xBF

/-- The number of bytes of a character by its first byte; 0 if no character
starts so. -/
def width (b : UInt8) : Nat :=
  if b < 0x80 then 1
  else if b < 0xC2 then 0
  else if b < 0xE0 then 2
  else if b < 0xF0 then 3
  else if b < 0xF5 then 4
  else 0

/-- Whether a byte can be the second of a character. Some continuations would
make a character that is too short for its bytes, a surrogate, or one beyond
the last character. -/
def isSecond (first second : UInt8) : Bool :=
  if first = 0xE0 then 0xA0 ≤ second && second ≤ 0xBF
  else if first = 0xED then 0x80 ≤ second && second ≤ 0x9F
  else if first = 0xF0 then 0x90 ≤ second && second ≤ 0xBF
  else if first = 0xF4 then 0x80 ≤ second && second ≤ 0x8F
  else isContinuation second

def tailBits (b : UInt8) : Nat := b.toNat % 64

/-- The characters of a text, with `none` for every piece that is no character. -/
def pieces : List UInt8 → List (Option Char)
  | [] => []
  | a :: rest =>
    match width a with
    | 1 => some (Char.ofNat a.toNat) :: pieces rest
    | 2 =>
      match rest with
      | b :: rest' =>
        if isSecond a b then some (Char.ofNat (a.toNat % 32 * 64 + tailBits b)) :: pieces rest'
        else none :: pieces (b :: rest')
      | [] => [none]
    | 3 =>
      match rest with
      | b :: rest' =>
        if isSecond a b then
          match rest' with
          | c :: rest'' =>
            if isContinuation c then
              some (Char.ofNat (a.toNat % 16 * 4096 + tailBits b * 64 + tailBits c)) ::
                pieces rest''
            else none :: pieces (c :: rest'')
          | [] => [none]
        else none :: pieces (b :: rest')
      | [] => [none]
    | 4 =>
      match rest with
      | b :: rest' =>
        if isSecond a b then
          match rest' with
          | c :: rest'' =>
            if isContinuation c then
              match rest'' with
              | d :: rest''' =>
                if isContinuation d then
                  some (Char.ofNat (a.toNat % 8 * 262144 + tailBits b * 4096 + tailBits c * 64 +
                    tailBits d)) ::
                    pieces rest'''
                else none :: pieces (d :: rest''')
              | [] => [none]
            else none :: pieces (c :: rest'')
          | [] => [none]
        else none :: pieces (b :: rest')
      | [] => [none]
    | _ => none :: pieces rest

/-- What stands for bytes that are no text. -/
def replacement : Char := '�'

/-- The text of bytes, with a replacement for what is no text. -/
def decodeLossy (bytes : List UInt8) : String :=
  String.ofList ((pieces bytes).map (·.getD replacement))

/-- The text of bytes, if they are one. -/
def decode? (bytes : List UInt8) : Option String :=
  ((pieces bytes).mapM fun c => c).map String.ofList

end CodeAtlas.Utf8
