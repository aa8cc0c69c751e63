import CalledIt.Escrow.State

/-!
# CalledIt.Escrow.Admin

What the administration instructions accept (`instructions/admin.rs`): the
protocol configuration and the oracle set.

An accepted oracle set has three distinct signers and a threshold of two;
`AcceptedOracleSet` records this for the set that `rotate_oracle_set` stores.
-/

namespace CalledIt.Escrow

open Lib

structure RotateOracleSetArgs where
  epoch : UInt64
  signers : List Pubkey
  threshold : UInt8
  activationSlot : UInt64
  retirementSlot : Option UInt64

/-- The signers of a set are real keys and pairwise distinct. -/
def validateOracleSigners : List Pubkey → Result Unit
  | [] => .ok ()
  | signer :: rest => do
      require (signer ≠ defaultPubkey) EscrowError.invalidOracleSigner
      require (signer ∉ rest) EscrowError.invalidOracleSigner
      validateOracleSigners rest

def validateOracleSet (args : RotateOracleSetArgs) (currentSlot : UInt64) : Result Unit := do
  require (args.signers.length = oracleSignerCountV1)
    EscrowError.invalidOracleSet
  require (args.threshold = oracleThresholdV1)
    EscrowError.invalidOracleThreshold
  validateOracleSigners args.signers
  require (args.activationSlot ≥ currentSlot) EscrowError.invalidOracleSet
  match args.retirementSlot with
  | some retirementSlot =>
      require (retirementSlot > args.activationSlot) EscrowError.invalidOracleSet
  | none => return ()

/-- The account that `rotate_oracle_set` writes from its arguments. -/
def RotateOracleSetArgs.oracleSet (args : RotateOracleSetArgs) (bump : UInt8) : OracleSet :=
  { version := schemaVersionV1
    bump
    epoch := args.epoch
    signers := args.signers
    threshold := args.threshold
    activationSlot := args.activationSlot
    retirementSlot := args.retirementSlot }

/-- Three distinct signers, any two of whom decide. -/
structure AcceptedOracleSet (set : OracleSet) : Prop where
  count : set.signers.length = 3
  distinct : set.signers.Nodup
  threshold : set.threshold = 2

theorem nodup_of_validateOracleSigners {signers : List Pubkey}
    (h : validateOracleSigners signers = .ok ()) : signers.Nodup := by
  induction signers with
  | nil => exact List.nodup_nil
  | cons signer rest ih =>
      simp only [validateOracleSigners, bind_ok_iff, require_ok_iff] at h
      obtain ⟨_, _, _, hfresh, hrest⟩ := h
      exact List.nodup_cons.mpr ⟨hfresh, ih hrest⟩

theorem acceptedOracleSet_of_validate {args : RotateOracleSetArgs} {slot : UInt64} (bump : UInt8)
    (h : validateOracleSet args slot = .ok ()) : AcceptedOracleSet (args.oracleSet bump) := by
  unfold validateOracleSet at h
  simp only [bind_ok_iff, require_ok_iff] at h
  obtain ⟨_, hcount, _, hthreshold, _, hsigners, _⟩ := h
  exact ⟨hcount, nodup_of_validateOracleSigners hsigners, hthreshold⟩

end CalledIt.Escrow
