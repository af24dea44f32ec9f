import ApiClientGen.Encoding.Fault

/-!
Reading bytes as UTF-8. A sequence is refused at the first byte that cannot belong to it, and the
fault covers the bytes up to there.
-/
namespace ApiClientGen.Encoding.Utf8

/-- What a first byte announces: how many bytes follow, which values the second may have, and the
bits the first contributes. -/
structure Lead where
  following : Nat
  low : Nat
  high : Nat
  bits : Nat

/-- The sequences that a byte may begin; none for a continuation byte and for the bytes that
occur in no character. -/
def lead? (byte : UInt8) : Option Lead :=
  let n := byte.toNat
  if n < 0x80 then some ⟨0, 0, 0, n⟩
  else if n < 0xC2 then none
  else if n < 0xE0 then some ⟨1, 0x80, 0xBF, n - 0xC0⟩
  else if n = 0xE0 then some ⟨2, 0xA0, 0xBF, n - 0xE0⟩
  else if n = 0xED then some ⟨2, 0x80, 0x9F, n - 0xE0⟩
  else if n < 0xF0 then some ⟨2, 0x80, 0xBF, n - 0xE0⟩
  else if n = 0xF0 then some ⟨3, 0x90, 0xBF, n - 0xF0⟩
  else if n < 0xF4 then some ⟨3, 0x80, 0xBF, n - 0xF0⟩
  else if n = 0xF4 then some ⟨3, 0x80, 0x8F, n - 0xF0⟩
  else none

/-- How a sequence fails: after so many good bytes, for this reason. -/
abbrev Broken := Nat × Reason

/-- The code that `count` following bytes complete, the next of them within the bounds and the
others within the bounds of any continuation byte. `good` bytes came before. -/
def complete (good : Nat) : (count low high code : Nat) → List UInt8 → Except Broken Nat
  | 0, _, _, code, _ => .ok code
  | _ + 1, _, _, _, [] => .error (good, .endOfData)
  | count + 1, low, high, code, byte :: rest =>
    if low ≤ byte.toNat ∧ byte.toNat ≤ high then
      complete (good + 1) count 0x80 0xBF (code * 64 + (byte.toNat - 0x80)) rest
    else .error (good, .continuationByte)

def halfPair : List UInt8 → Bool
  | first :: second :: third :: _ =>
    first = 0xED && 0xA0 ≤ second && second ≤ 0xBF && 0x80 ≤ third && third ≤ 0xBF
  | _ => false

def character (first : UInt8) (rest : List UInt8) : Except Broken (Char × Nat) :=
  if halfPair (first :: rest) then .ok (replacement, 2)
  else match lead? first with
    | none => .error (1, .startByte)
    | some lead => do
      let code ← complete 1 lead.following lead.low lead.high lead.bits rest
      return (Char.ofNat code, lead.following)

/-- The characters of the bytes from position `start` on, after those in `read`, which are listed
last first. -/
def decodeFrom (start : Nat) (read : List Char) : List UInt8 → Except Fault (List Char)
  | [] => .ok read.reverse
  | first :: rest =>
    match character first rest with
    | .ok (c, behind) => decodeFrom (start + 1 + behind) (c :: read) (rest.drop behind)
    | .error (good, reason) => .error ⟨.utf8, start, good, first, reason⟩
  termination_by bytes => bytes.length
  decreasing_by simp only [List.length_drop, List.length_cons]; omega

def decode (bytes : List UInt8) : Except Fault (List Char) :=
  decodeFrom 0 [] bytes

/-- The characters that the bytes spell, with a replacement for each run of bytes that is
refused. -/
def decodeLoosely : List UInt8 → List Char
  | [] => []
  | first :: rest =>
    match lead? first with
    | none => replacement :: decodeLoosely rest
    | some lead =>
      match complete 1 lead.following lead.low lead.high lead.bits rest with
      | .ok code => Char.ofNat code :: decodeLoosely (rest.drop lead.following)
      | .error (good, _) => replacement :: decodeLoosely (rest.drop (good - 1))
  termination_by bytes => bytes.length
  decreasing_by all_goals simp only [List.length_drop, List.length_cons]; omega

end ApiClientGen.Encoding.Utf8
