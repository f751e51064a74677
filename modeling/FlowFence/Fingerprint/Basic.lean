import FlowFence.Fingerprint.Md5
import FlowFence.Program.Json
import FlowFence.Ruleset.Chain
import FlowFence.Text.Utf8

/-!
# Fingerprints of rule lists

A fingerprint tells whether a rule list is the one applied last. The bytes of each rule's JSON text
are sorted and digested, and the list of these sums is digested again. The order of the rules
counts, the order of the bytes inside one rule does not.
-/

namespace FlowFence

structure Fingerprint where
  bytes : List UInt8
deriving DecidableEq, Inhabited

namespace Fingerprint

/-- The fingerprint that stands for no rule list. -/
def zero : Fingerprint :=
  ⟨List.replicate 16 0⟩

/-- Two lowercase hexadecimal digits for each byte. -/
def text (fingerprint : Fingerprint) : String :=
  String.ofList (fingerprint.bytes.flatMap fun b => Text.padded 2 (Text.hexadecimal b.toNat))

def sortedBytes (program : Program) : List UInt8 :=
  (Utf8.encode program.serialized).mergeSort (· ≤ ·)

def sumOf (program : Program) : List UInt8 :=
  Md5.digest (sortedBytes program)

def sumsText (sums : List (List UInt8)) : List Char :=
  (Json.list (sums.map Json.bytes)).compact

def ofPrograms (programs : List Program) : Fingerprint :=
  ⟨Md5.digest (Utf8.encode (sumsText (programs.map sumOf)))⟩

end Fingerprint

structure RuleSet where
  chain : Chain
  programs : List Program
deriving DecidableEq

/-- The fingerprint of a rule set is that of its rules; the chain has no part in it. -/
def RuleSet.fingerprint (rules : RuleSet) : Fingerprint :=
  .ofPrograms rules.programs

end FlowFence
