/-! Reading bytes as UTF-8. Each character, or each run of bytes that starts a
character and breaks off, is one item of the result; broken runs are as long as
they can be. -/
namespace Formulary.Text

abbrev Bytes := List UInt8

def Bytes.ofText (text : String) : Bytes := text.toUTF8.toList

/-- What a first byte announces: the bits it gives, how many bytes follow, and the
range of the byte right after it. -/
def lead? (byte : Nat) : Option (Nat × Nat × Nat × Nat) :=
  if byte < 0x80 then some (byte, 0, 0x80, 0xBF)
  else if 0xC2 ≤ byte && byte ≤ 0xDF then some (byte % 0x20, 1, 0x80, 0xBF)
  else if 0xE0 ≤ byte && byte ≤ 0xEF then
    some (byte % 0x10, 2, if byte = 0xE0 then 0xA0 else 0x80, if byte = 0xED then 0x9F else 0xBF)
  else if 0xF0 ≤ byte && byte ≤ 0xF4 then
    some (byte % 0x08, 3, if byte = 0xF0 then 0x90 else 0x80, if byte = 0xF4 then 0x8F else 0xBF)
  else none

/-- The code point after `count` more bytes and what follows it, or what follows the
broken run. -/
def continuation : (count low high code : Nat) → Bytes → Option Nat × Bytes
  | 0, _, _, code, rest => (some code, rest)
  | _ + 1, _, _, _, [] => (none, [])
  | count + 1, low, high, code, byte :: rest =>
    if low ≤ byte.toNat && byte.toNat ≤ high then
      continuation count 0x80 0xBF (code * 0x40 + byte.toNat % 0x40) rest
    else (none, byte :: rest)

private theorem continuation_shorter (count low high code : Nat) (bytes : Bytes) :
    (continuation count low high code bytes).2.length ≤ bytes.length := by
  fun_induction continuation count low high code bytes with
  | case1 => simp
  | case2 => simp
  | case3 _ _ _ _ _ _ _ ih => simp only [List.length_cons]; omega
  | case4 => simp

/-- The characters of the bytes, `none` for a broken run. -/
def decode : Bytes → List (Option Char)
  | [] => []
  | byte :: rest =>
    match lead? byte.toNat with
    | none => none :: decode rest
    | some (bits, count, low, high) =>
      let read := continuation count low high bits rest
      read.1.map Char.ofNat :: decode read.2
termination_by bytes => bytes.length
decreasing_by
  · simp
  · have := continuation_shorter count low high bits rest
    simp only [List.length_cons]
    omega

def Bytes.text? (bytes : Bytes) : Option String :=
  (decode bytes).mapM id |>.map String.ofList

/-- The text of any bytes, with a replacement character for each broken run. -/
def Bytes.lossy (bytes : Bytes) : String :=
  String.ofList ((decode bytes).map fun c => c.getD (Char.ofNat 0xFFFD))

/-- Lines end at a line feed, which goes with one carriage return before it; the last
line needs none. -/
def Bytes.lines : Bytes → List Bytes
  | [] => []
  | byte :: rest =>
    if byte = 10 then [] :: lines rest
    else if byte = 13 && rest.head? = some 10 then
      match rest with
      | _ :: more => [] :: lines more
      | [] => []
    else match lines rest with
      | [] => [[byte]]
      | line :: more => (byte :: line) :: more

end Formulary.Text
