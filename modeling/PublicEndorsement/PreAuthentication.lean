import PublicEndorsement.EndorsementDomain
import PublicEndorsement.PrefixCodec

/-!
# The bytes an endorsement signature covers

`PreAuthenticationEncoding` writes a fixed marker and then four blocks, each after
its decimal length. It is an instance of a prefix codec, which makes it uniquely
decodable whatever the blocks contain.
-/

namespace PublicEndorsement.Pes

open Mbs

namespace PreAuthenticationEncoding

def pesPrefix : Bytes := Utf16.utf8 (text "PES")
def space : Bytes := [0x20]

def valueOf (n : ℕ) : Utf16 := (Nat.toDigits 10 n).flatMap Utf16.units

def encode (data : Bytes) : Bytes :=
  let lengthBytes := Utf16.utf8 (valueOf data.length)
  space ++ lengthBytes ++ space ++ data

def calculate (statement : Statement) (signature : StatementSignature)
    (tlogReceipt : TLogReceipt) : Bytes :=
  let logIdBytes := Utf16.utf8 tlogReceipt.logId
  [pesPrefix, encode statement.serialized, encode signature.verificationMaterial.content,
    encode signature.signature, encode logIdBytes].flatten

theorem utf8_valueOf (n : ℕ) : Utf16.utf8 (valueOf n) = decimalDigits n := by
  apply Utf16.utf8_flatMap_units_ascii
  intro c hc
  have hdigit := Nat.isDigit_of_mem_toDigits (by norm_num) (by norm_num) hc
  have hbounds : 48 ≤ c.toNat ∧ c.toNat ≤ 57 := by
    simpa [Char.isDigit, UInt32.le_iff_toNat_le] using hdigit
  omega

/-- One block: a space, the length, a space, the data. -/
def fieldCodec : PrefixCodec Bytes UInt8 := .after space (.counted 0x20 (by decide))

theorem encode_eq_fieldCodec (data : Bytes) : encode data = fieldCodec.encode data := by
  simp [encode, utf8_valueOf, fieldCodec, PrefixCodec.after, PrefixCodec.counted,
    PrefixCodec.decimal, space]

def paeCodec : PrefixCodec (Bytes × Bytes × Bytes × Bytes) UInt8 :=
  .after pesPrefix (.pair fieldCodec (.pair fieldCodec (.pair fieldCodec fieldCodec)))

theorem calculate_eq_paeCodec (statement : Statement) (signature : StatementSignature)
    (tlogReceipt : TLogReceipt) :
    calculate statement signature tlogReceipt = paeCodec.encode
      (statement.serialized, signature.verificationMaterial.content, signature.signature,
        Utf16.utf8 tlogReceipt.logId) := by
  simp [calculate, encode_eq_fieldCodec, paeCodec, PrefixCodec.after, PrefixCodec.pair]

/-- The encoding is uniquely decodable from the front of any byte string; it
determines the four blocks and, for well-formed ids, the log id itself, and no
encoding is a proper prefix of another. -/
theorem calculate_uniquely_decodable :
    ∃ decode : Bytes → Option ((Bytes × Bytes × Bytes × Bytes) × Bytes),
      (∀ statement signature tlogReceipt rest,
        decode (calculate statement signature tlogReceipt ++ rest) =
          some ((statement.serialized, signature.verificationMaterial.content,
            signature.signature, Utf16.utf8 tlogReceipt.logId), rest)) ∧
      (∀ statement signature tlogReceipt statement' signature' tlogReceipt',
        tlogReceipt.logId.WellFormed = true → tlogReceipt'.logId.WellFormed = true →
        calculate statement signature tlogReceipt =
          calculate statement' signature' tlogReceipt' →
        statement.serialized = statement'.serialized ∧
          signature.verificationMaterial.content = signature'.verificationMaterial.content ∧
          signature.signature = signature'.signature ∧ tlogReceipt.logId = tlogReceipt'.logId) ∧
      (∀ statement signature tlogReceipt statement' signature' tlogReceipt',
        calculate statement signature tlogReceipt <+:
          calculate statement' signature' tlogReceipt' →
        calculate statement signature tlogReceipt =
          calculate statement' signature' tlogReceipt') := by
  refine ⟨paeCodec.decode, ?_, ?_, ?_⟩
  · intro statement signature tlogReceipt rest
    rw [calculate_eq_paeCodec, paeCodec.decode_encode]
  · intro statement signature tlogReceipt statement' signature' tlogReceipt' hwf hwf' heq
    rw [calculate_eq_paeCodec, calculate_eq_paeCodec] at heq
    have hblocks := paeCodec.encode_injective heq
    simp only [Prod.mk.injEq] at hblocks
    obtain ⟨hserialized, hcontent, hsignature, hlogId⟩ := hblocks
    exact ⟨hserialized, hcontent, hsignature, Utf16.eq_of_utf8_eq hwf hwf' hlogId⟩
  · intro statement signature tlogReceipt statement' signature' tlogReceipt' hprefix
    rw [calculate_eq_paeCodec, calculate_eq_paeCodec] at hprefix ⊢
    rw [paeCodec.eq_of_encode_prefix hprefix]

end PreAuthenticationEncoding
end PublicEndorsement.Pes
