import CalledIt.Escrow.Solvency
import CalledIt.Signer.Progress

/-!
# CalledIt.Signer.Witnessed

A market pays by what an honest signer saw.

Two pinned signers have signed what the program takes, so one that runs the service has, and
the service signs what its verifier took on a snapshot of the feed.  The bytes have one
reading, so the outcome that the program keeps stands at the end of that snapshot.
-/

namespace CalledIt.Signer

open Lib Escrow
open Engine (MarketSpec MatchEvent)
open Sdk (JsResult ClaimOutcome SameDocument)

/-- The signing service of one market, and the snapshots that its feed serves. -/
structure Service where
  sha256 : List UInt8 → Bytes 32
  sha256Hex : List UInt8 → String
  control : VerifiedAttestation → JsResult Unit
  spec : MarketSpec
  served : List MatchEvent → Prop

/-- The service signs what its verifier took on a snapshot. -/
def Service.Signs (s : Service) (bytes : List UInt8) : Prop :=
  ∃ binding events journal journal' envelope, s.served events ∧
    sign s.sha256Hex (verify s.sha256 s.control binding s.spec events) journal envelope =
      .ok (journal', bytes)

/-- The accounts of a terminal attestation. -/
def attestedBy : Call → Option AttestedAccounts
  | .settleMarket accounts _ | .voidMarket accounts _ => some accounts
  | _ => none

/-- All pinned signers but one sign with the service only. -/
def Service.Genuine (s : Service) (accounts : AttestedAccounts) : Prop :=
  AcceptedOracleSet accounts.oracleSet.oracleSet ∧
    ∃ corrupt, ∀ key ∈ accounts.oracleSet.oracleSet.signers, key ≠ corrupt →
      ∀ bytes, Occurs bytes accounts.preceding key → s.Signs bytes

/-- A step of the program whose terminal attestations are genuine. -/
inductive GenuineStep (rt : Runtime) (s : Service) : Ledger → Escrow.Entry → Ledger → Prop
  | call {L L' : Ledger} {clock : Clock} {c : Call} {event : Event} :
      execute rt clock L c = .ok (L', event) → (∀ accounts ∈ attestedBy c, s.Genuine accounts) →
      GenuineStep rt s L (.emitted clock event) L'
  | foreign {L L' : Ledger} {amount : UInt64} :
      L.receive amount = some L' → GenuineStep rt s L (.received amount) L'

/-- Why an entry may decide a market so. -/
inductive Service.Witnesses (s : Service) (entry : Escrow.Entry) : SettlementOutcome → Prop
  /-- The match is over in a snapshot, with this outcome. -/
  | settled {outcome : ClaimOutcome} {events : List MatchEvent} {latest : MatchEvent} :
      s.served events → Finished s.spec outcome events latest → s.Witnesses entry outcome.onChain
  /-- A snapshot ends with a reason to void. -/
  | voided {reason : VoidReason} {events : List MatchEvent} {latest : MatchEvent} :
      s.served events → Latest events latest →
      voidReason latest (claimedOutcome s.spec latest (standingGoals events latest.seq)) =
        some reason →
      s.Witnesses entry .void
  | timedOut {clock : Clock} {e : MarketVoided} :
      entry = .emitted clock (.marketVoided e) → e.timedOut = true → s.Witnesses entry .void

variable {rt : Runtime} {s : Service} {opening L L' : Ledger} {trace : List Escrow.Entry}
  {entry : Escrow.Entry} {accounts : AttestedAccounts} {clock : Clock} {c : Call} {event : Event}

/-- What the program takes was taken by a signer. -/
theorem verified_of_genuine (attestation : TerminalAttestation)
    {encoded : EncodingResult (List UInt8)} {bytes : List UInt8}
    {now issuedAt expiresAt : Int64} (h : s.Genuine accounts)
    (hmessage : attestationMessage encoded = .ok bytes)
    (hencoded : encoded.toOption = attestation.document.encode)
    (hverify : verifyThresholdSignatures accounts.oracleSet.oracleSet accounts.preceding
      bytes now issuedAt expiresAt = .ok ()) :
    ∃ binding events request json, s.served events ∧
      SameDocument request.document attestation.document ∧
      verify s.sha256 s.control binding s.spec events request json = .ok () := by
  obtain ⟨hset, corrupt, hsigned⟩ := h
  obtain ⟨-, -, -, -, a, ha, b, hb, hne, hoccA, hoccB⟩ :=
    (verifyThresholdSignatures_ok_iff hset).mp hverify
  -- of two signers one is not the corrupt one
  have hservice : s.Signs bytes := by
    by_cases hcorrupt : a = corrupt
    · exact hsigned b hb (fun h => hne (hcorrupt.trans h.symm)) _ hoccB
    · exact hsigned a ha hcorrupt _ hoccA
  obtain ⟨binding, events, _, _, envelope, hserved, hsign⟩ := hservice
  obtain ⟨hparse, htaken, -⟩ := sign_ok_iff.mp hsign
  rw [attestationMessage, mapError_ok_iff] at hmessage
  rw [hmessage] at hencoded
  exact ⟨binding, events, envelope.request, _, hserved,
    TerminalAttestation.sameDocument_of_bytes hencoded.symm
      (parseOracleSigningEnvelope_ok hparse).1, htaken⟩

theorem witnesses_of_settle {args : SettleMarketArgs} (hgenuine : s.Genuine accounts)
    (h : execute rt clock L (.settleMarket accounts args) = .ok (L', event)) :
    s.Witnesses entry L'.market.settlementOutcome := by
  simp only [Escrow.execute, settleMarket, bind_ok_iff, pure_ok_iff, Prod.mk.injEq] at h
  obtain ⟨m, hm, _, _, _, _, _, _, _, _, bytes, hbytes, _, hverify, m', hbegin, rfl, -⟩ := h
  obtain ⟨_, rfl⟩ := loadMarket_ok hm
  obtain ⟨-, -, pots, -, rfl⟩ := beginSettlement_ok_iff.mp hbegin
  obtain ⟨binding, events, request, json, hserved, hsame, htaken⟩ :=
    verified_of_genuine (.settlement _) hgenuine hbytes rfl hverify
  cases request <;> cases hsame
  next decided =>
  obtain ⟨-, latest, _, haccepted⟩ := verify_settlement_iff.mp htaken
  exact (congrArg (s.Witnesses entry) decided).mp
    (.settled hserved ⟨haccepted.snapshot, haccepted.terminal, haccepted.standing⟩)

theorem witnesses_of_void {args : VoidMarketArgs} (hgenuine : s.Genuine accounts)
    (h : execute rt clock L (.voidMarket accounts args) = .ok (L', event)) :
    s.Witnesses entry L'.market.settlementOutcome := by
  simp only [Escrow.execute, voidMarket, bind_ok_iff, pure_ok_iff, Prod.mk.injEq] at h
  obtain ⟨m, hm, _, _, _, _, _, _, bytes, hbytes, _, hverify, m', hvoid, rfl, -⟩ := h
  obtain ⟨_, rfl⟩ := loadMarket_ok hm
  obtain ⟨-, rfl⟩ := transitionToVoid_ok_iff.mp hvoid
  obtain ⟨binding, events, request, json, hserved, hsame, htaken⟩ :=
    verified_of_genuine (.void _) hgenuine hbytes rfl hverify
  cases request <;> cases hsame
  simp only [verify, bind_ok_iff, verifyVoid_ok_iff] at htaken
  obtain ⟨_, -, _, -, latest, _, haccepted⟩ := htaken
  exact .voided hserved haccepted.snapshot haccepted.standing

/-- Only the three instructions that decide a market end its live phase. -/
theorem decides_of_execute (h : execute rt clock L c = .ok (L', event))
    (hlive : L.market.state.Live) (hdecided : ¬ L'.market.state.Live) : c.Decides := by
  obtain ⟨_, _, heq, hdecisive⟩ := (effect_of_execute h).decisive hlive hdecided
  obtain ⟨rfl, rfl⟩ := Escrow.Entry.emitted.inj heq
  cases c with
  | settleMarket | voidMarket | timeoutVoid => trivial
  | calculatePositionEntitlement =>
      simp only [Escrow.execute, calculatePositionEntitlement, bind_ok_iff, Prod.exists] at h
      obtain ⟨m, hm, _, _, _, _, _, hcalculate, -⟩ := h
      obtain ⟨_, rfl⟩ := loadMarket_ok hm
      obtain ⟨_, hentitled⟩ := calculateEntitlement_ok hcalculate
      rw [hentitled.settling] at hlive
      exact absurd hlive (by decide)
  | _ =>
    simp only [Escrow.execute, freezeMarket, unfreezeMarket, placePosition,
      activatePositionLot, invalidatePositionLot, claimPosition,
      claimPositionFor, processClaim, closePositionLots, closePosition,
      closeMarket, bind_ok_iff, pure_ok_iff, Prod.mk.injEq, Prod.exists] at h
    grind [Event.Decisive]

theorem GenuineStep.effect (h : GenuineStep rt s L entry L') : Effect rt L entry L' := by
  cases h with
  | call h => exact effect_of_execute h
  | foreign h => exact effect_of_receive h

theorem GenuineStep.witnesses (h : GenuineStep rt s L entry L') (hlive : L.market.state.Live)
    (hdecided : ¬ L'.market.state.Live) : s.Witnesses entry L'.market.settlementOutcome := by
  obtain ⟨_, _, rfl, -⟩ := h.effect.decisive hlive hdecided
  cases h with
  | @call _ _ c _ h hgenuine =>
      have hdecides := decides_of_execute h hlive hdecided
      cases c with
      | settleMarket => exact witnesses_of_settle (hgenuine _ rfl) h
      | voidMarket => exact witnesses_of_void (hgenuine _ rfl) h
      | timeoutVoid =>
          simp only [Escrow.execute, timeoutVoid, bind_ok_iff, pure_ok_iff, Prod.mk.injEq] at h
          obtain ⟨m, hm, _, _, m', hvoid, rfl, rfl⟩ := h
          obtain ⟨-, rfl⟩ := transitionToVoid_ok_iff.mp hvoid
          exact .timedOut rfl rfl
      | _ => exact hdecides.elim

end CalledIt.Signer
