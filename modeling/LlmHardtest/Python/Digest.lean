import LlmHardtest.Python.JsonText
set_option autoImplicit false

/-! Digests of encoded text. -/

namespace Python

def utf8Encode (s : Str) : Bytes := s.flatMap String.utf8EncodeChar

/-- `[0-9a-f]` -/
def isLowerHex (c : Char) : Bool := c.isDigit || (97 ≤ c.toNat && c.toNat ≤ 102)

/-- `hashlib.sha256(data).hexdigest()`: 64 hexadecimal digits. -/
structure Sha256 where
  hexdigest : Bytes → Str
  length_eq : ∀ data, (hexdigest data).length = 64
  hex : ∀ data, ∀ c ∈ hexdigest data, isLowerHex c = true

def isFingerprint (s : Str) : Bool :=
  startsWith s "sha256:".toList && (s.drop 7).length == 64 && (s.drop 7).all isLowerHex

def isConfigurationId (s : Str) : Bool := s.length == 10 && s.all isLowerHex

abbrev Fingerprint := {s : Str // isFingerprint s = true}

abbrev ConfigurationId := {s : Str // isConfigurationId s = true}

theorem Sha256.take_isConfigurationId (sha : Sha256) (data : Bytes) :
    isConfigurationId ((sha.hexdigest data).take 10) = true := by
  have hlen := sha.length_eq data
  have hhex : ∀ c ∈ (sha.hexdigest data).take 10, isLowerHex c = true := fun c hc =>
    sha.hex data c (List.mem_of_mem_take hc)
  simp only [isConfigurationId, List.length_take, hlen, Nat.reduceLeDiff, inf_of_le_left,
    BEq.rfl, Bool.true_and, List.all_eq_true]
  exact hhex

/-- `hashlib.sha256(data).hexdigest()[:10]` -/
def Sha256.configurationId (sha : Sha256) (data : Bytes) : ConfigurationId :=
  ⟨(sha.hexdigest data).take 10, sha.take_isConfigurationId data⟩

def zeroSha : Sha256 where
  hexdigest _ := List.replicate 64 '0'
  length_eq _ := List.length_replicate
  hex data c hc := by
    rw [List.eq_of_mem_replicate hc]
    decide

end Python
