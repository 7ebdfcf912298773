import Misaka.Chain.Transaction

/-!
# Script classes

The shapes of locking scripts that consensus tells apart (`crypto/txscript/src/script_class.rs`). On
a network that enforces post-quantum scripts only the ML-DSA-87 class may be paid to, beside the
lock of the EVM bridge, which embeds such a script for its refund.
-/

namespace Misaka

inductive ScriptClass where
  | nonStandard
  | pubKey
  | pubKeyECDSA
  | scriptHash
  | pubKeyHashMlDsa87
  | evmDepositLock
  deriving DecidableEq, Repr

def MAX_SCRIPT_PUBLIC_KEY_VERSION : ℕ := 0

def scriptShape (length : ℕ) (opcodes : List (ℕ × UInt8)) (script : Bytes) : Bool :=
  script.length == length && opcodes.all fun op => script.getD op.1 0 == op.2

namespace ScriptClass

def isPayToPubkey : Bytes → Bool := scriptShape 34 [(0, 0x20), (33, 0xac)]

def isPayToPubkeyEcdsa : Bytes → Bool := scriptShape 35 [(0, 0x21), (34, 0xab)]

def isPayToScriptHash : Bytes → Bool := scriptShape 35 [(0, 0xaa), (1, 0x20), (34, 0x87)]

def isPayToPubKeyHashMldsa87 : Bytes → Bool :=
  scriptShape 69 [(0, 0x76), (1, 0xc4), (2, 0x40), (67, 0x88), (68, 0xa6)]

/-- `OpNop OpData36 .. OpDrop`, then the refund script. -/
def isEvmDepositLock (script : Bytes) : Bool :=
  scriptShape 108 [(0, 0x61), (1, 0x24), (38, 0x75)] script &&
    isPayToPubKeyHashMldsa87 (script.drop 39)

def fromScript (spk : ScriptPublicKey) : ScriptClass :=
  if spk.version = MAX_SCRIPT_PUBLIC_KEY_VERSION then
    if isPayToPubKeyHashMldsa87 spk.script then .pubKeyHashMlDsa87
    else if isEvmDepositLock spk.script then .evmDepositLock
    else if isPayToPubkey spk.script then .pubKey
    else if isPayToPubkeyEcdsa spk.script then .pubKeyECDSA
    else if isPayToScriptHash spk.script then .scriptHash
    else .nonStandard
  else .nonStandard

def isPqStandard (c : ScriptClass) : Bool := c == .pubKeyHashMlDsa87

end ScriptClass

structure EvmDepositLockFields where
  evmAddress : Bytes
  timeoutDaaScore : ℕ
  claimTipSompi : ℕ
  refundScriptPublicKey : ScriptPublicKey
  deriving DecidableEq, Repr

/-- The fields of a deposit lock, by their offsets. -/
def parseEvmDepositLock (spk : ScriptPublicKey) : Option EvmDepositLockFields :=
  if ScriptClass.fromScript spk ≠ .evmDepositLock then none
  else some
    { evmAddress := (spk.script.drop 2).take 20
      timeoutDaaScore := leNat ((spk.script.drop 22).take 8)
      claimTipSompi := leNat ((spk.script.drop 30).take 8)
      refundScriptPublicKey := ⟨MAX_SCRIPT_PUBLIC_KEY_VERSION, spk.script.drop 39⟩ }

end Misaka
