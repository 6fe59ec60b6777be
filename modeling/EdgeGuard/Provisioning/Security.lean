import EdgeGuard.Base.Ownership
import EdgeGuard.Provisioning.Protocol

/-!
# The physical-presence window

`security.c`: a window that opens for two minutes, the one peer that owns it, and
the checks of a sensitive write and of a commit.

Every function here is one section of the mutex, so calls from the main loop and
from a worker interleave as whole calls.  The clock is an argument.  An operation
that tells the daemon about the window answers with what it tells (`changed`).
Functions that refuse set an error, or leave it alone (`none`).

`expiry_source` only says whether a tick is due, and a tick may come at any time
here.  `egp_security_window_open`, which only the tests call, is left out.

## Main results

* `performs` — what any call does: nothing, a new epoch without an owner, or the
  claim of a window without one.
* `authorizeCommit_granted` — what a granted commit has checked.
-/

namespace EdgeGuard.Provisioning.Security

open EdgeGuard.Base.CText EdgeGuard.Base.Ownership
open EdgeGuard.Provisioning.Model EdgeGuard.Provisioning.Protocol

def egpWindowDurationUs : Int := 120 * 1000000

structure EgpSecurity where
  isOpen : Bool
  deadlineUs : Int
  /-- A `guint64`. -/
  windowEpoch : Nat
  /-- Empty without an owner. -/
  owner : Bytes
  deriving DecidableEq, Repr

structure EgpPeerSecurity where
  connected : Bool
  paired : Bool
  bonded : Bool
  stableIdentity : Bool
  encryptedTransport : Bool
  connectionEpoch : Nat
  deriving DecidableEq, Repr

/-- `egp_security_new`. -/
def egpSecurityNew : EgpSecurity := ⟨false, 0, 0, []⟩

/-- `advance_epoch`, on the epoch. -/
def advanceEpoch (epoch : Nat) : Nat :=
  let next := (epoch + 1) % 2 ^ 64
  if next = 0 then next + 1 else next

/-- The error of `deny`. -/
def deny (code : EgpErrorCode) (message : String) : EgpError :=
  egpErrorSet code true .none (ascii message)

/-- A function that may leave the error alone. -/
abbrev Answer := Except (Option EgpError) Unit

def Answer.granted : Answer → Bool
  | .ok _ => true
  | .error _ => false

/-- The test that the window is open at a time. -/
def EgpSecurity.openAt (s : EgpSecurity) (now : Int) : Bool :=
  s.isOpen && 0 < now && now < s.deadlineUs

/-! ## The window -/

/-- What a call leaves, and what it tells `window_changed`. -/
structure Moved where
  security : EgpSecurity
  changed : Option Bool

/-- `expiry_tick`. -/
def expiryTick (s : EgpSecurity) (now : Int) : Moved :=
  if !s.isOpen then ⟨s, none⟩
  else if s.deadlineUs ≤ now then
    ⟨⟨false, 0, advanceEpoch s.windowEpoch, []⟩, some false⟩
  else ⟨s, none⟩

/-- `egp_security_open_window`. -/
def egpSecurityOpenWindow (s : EgpSecurity) (now : Int) : Moved :=
  if now ≤ 0 then ⟨s, none⟩
  else ⟨⟨true, now + egpWindowDurationUs, advanceEpoch s.windowEpoch, []⟩, some true⟩

/-- `egp_security_close_window`. -/
def egpSecurityCloseWindow (s : EgpSecurity) : Moved :=
  if s.isOpen || !s.owner.isEmpty then
    ⟨⟨false, 0, advanceEpoch s.windowEpoch, []⟩, some false⟩
  else ⟨⟨false, 0, s.windowEpoch, []⟩, none⟩

/-- `egp_security_bluez_lost`. -/
def egpSecurityBluezLost (s : EgpSecurity) : EgpSecurity :=
  { s with windowEpoch := advanceEpoch s.windowEpoch, owner := [] }

/-! ## The checks -/

/-- `egp_security_allow_pairing`. -/
def egpSecurityAllowPairing (s : EgpSecurity) (peerPath : Bytes) (now : Int) : Answer :=
  if !isObjectPath peerPath then
    .error (some (deny .bleUnauthorized "Pairing peer identity is invalid"))
  else if !s.openAt now then
    .error (some (deny .bleWindowClosed "Physical-presence window is closed"))
  else if !(s.owner.isEmpty || s.owner == peerPath) then
    .error (some (deny .bleUnauthorized "Another peer owns the current provisioning window"))
  else .ok ()

/-- `peer_currently_eligible`. -/
def peerCurrentlyEligible (peer : EgpPeerSecurity) : Answer :=
  if !peer.paired || !peer.bonded then
    .error (some (deny .bleNotPaired "A paired and bonded peer is required"))
  else if !peer.connected || !peer.stableIdentity then
    .error (some (deny .bleUnauthorized "Stable connected peer identity is required"))
  else .ok ()

/-- `peer_initially_eligible`. -/
def peerInitiallyEligible (peer : EgpPeerSecurity) : Answer :=
  if !peer.encryptedTransport then
    .error (some (deny .bleUnauthorized "Encrypted GATT transport is required"))
  else peerCurrentlyEligible peer

/-- `egp_security_authorize_sensitive`.  `g_strlcpy` cuts the owner to the array. -/
def egpSecurityAuthorizeSensitive (s : EgpSecurity) (peerPath : Bytes) (peer : EgpPeerSecurity)
    (claimIfUnowned : Bool) (now : Int) : EgpSecurity × Answer :=
  if !isObjectPath peerPath then (s, .error none)
  else
    match peerInitiallyEligible peer with
    | .error error => (s, .error error)
    | .ok () =>
        if !s.openAt now then
          (s, .error (some (deny .bleWindowClosed "Physical-presence window is closed")))
        else if s.owner.isEmpty && claimIfUnowned then
          ({ s with owner := peerPath.take (egpDbusPathCap - 1) }, .ok ())
        else if s.owner == peerPath then (s, .ok ())
        else
          (s, .error (some (deny .bleUnauthorized
            "Peer does not own the current provisioning window")))

/-- `egp_security_authorize_commit`. -/
def egpSecurityAuthorizeCommit (s : EgpSecurity) (peerPath : Bytes) (peer : EgpPeerSecurity)
    (expectedWindowEpoch expectedConnectionEpoch : Nat) (now : Int) : Answer :=
  if !isObjectPath peerPath || expectedWindowEpoch == 0 || expectedConnectionEpoch == 0 then
    .error none
  else
    match peerCurrentlyEligible peer with
    | .error error => .error error
    | .ok () =>
        if peer.connectionEpoch != expectedConnectionEpoch then
          .error (some (deny .bleUnauthorized
            "Peer connection/security epoch changed before commit"))
        else if !s.openAt now then
          .error (some (deny .bleWindowClosed "Physical-presence window is closed"))
        else if s.windowEpoch == expectedWindowEpoch && !s.owner.isEmpty &&
            s.owner == peerPath then .ok ()
        else
          .error (some (deny .bleUnauthorized
            "Provisioning authorization epoch changed before commit"))

/-- `egp_security_can_read_result`. -/
def egpSecurityCanReadResult (s : EgpSecurity) (peerPath : Bytes) (peer : EgpPeerSecurity)
    (now : Int) : EgpSecurity × Answer :=
  egpSecurityAuthorizeSensitive s peerPath peer false now

/-! ## Calls -/

inductive Call
  | openWindow (now : Int)
  | closeWindow
  | expiryTick (now : Int)
  | bluezLost
  | allowPairing (peerPath : Bytes) (now : Int)
  | authorizeSensitive (peerPath : Bytes) (peer : EgpPeerSecurity) (claimIfUnowned : Bool)
      (now : Int)
  | authorizeCommit (peerPath : Bytes) (peer : EgpPeerSecurity)
      (expectedWindowEpoch expectedConnectionEpoch : Nat) (now : Int)

/-- The state that a call leaves, and whether it answers TRUE.  The calls without an
answer count as granted. -/
def perform (s : EgpSecurity) : Call → EgpSecurity × Bool
  | .openWindow now => ((egpSecurityOpenWindow s now).security, true)
  | .closeWindow => ((egpSecurityCloseWindow s).security, true)
  | .expiryTick now => ((expiryTick s now).security, true)
  | .bluezLost => (egpSecurityBluezLost s, true)
  | .allowPairing peerPath now => (s, (egpSecurityAllowPairing s peerPath now).granted)
  | .authorizeSensitive peerPath peer claimIfUnowned now =>
      let r := egpSecurityAuthorizeSensitive s peerPath peer claimIfUnowned now
      (r.1, r.2.granted)
  | .authorizeCommit peerPath peer windowEpoch connectionEpoch now =>
      (s, (egpSecurityAuthorizeCommit s peerPath peer windowEpoch connectionEpoch now).granted)

/-- The paths that may claim: `write_value`, the only caller that claims, has passed
them through `egp_protocol_accept`, which refuses what the array cannot hold. -/
def Call.bounded : Call → Prop
  | .authorizeSensitive peerPath _ true _ => peerPath.length < egpDbusPathCap
  | _ => True

theorem advanceEpoch_ne (epoch : Nat) : advanceEpoch epoch ≠ epoch := by
  unfold advanceEpoch
  simp only
  split <;> omega

/-- Before the counter is used up an advance is an increment. -/
theorem advanceEpoch_lt {epoch : Nat} (h : epoch + 1 < 2 ^ 64) :
    advanceEpoch epoch = epoch + 1 := by
  unfold advanceEpoch
  simp only
  rw [Nat.mod_eq_of_lt h, if_neg (by omega)]

theorem isObjectPath_ne_nil {path : Bytes} (h : isObjectPath path = true) : path ≠ [] := by
  rintro rfl
  cases h

/-- What the call does to the window. -/
inductive Performs (s : EgpSecurity) (call : Call) (after : EgpSecurity) (granted : Bool) : Prop
  | kept (epoch : after.windowEpoch = s.windowEpoch) (owner : after.owner = s.owner)
  | renewed (epoch : after.windowEpoch = advanceEpoch s.windowEpoch) (owner : after.owner = [])
  | claimed (peerPath : Bytes) (peer : EgpPeerSecurity) (now : Int)
      (eq : call = .authorizeSensitive peerPath peer true now) (granted : granted = true)
      (path : isObjectPath peerPath = true) (free : s.owner = [])
      (eligible : peerInitiallyEligible peer = .ok ()) (opened : s.openAt now = true)
      (leaves : after = { s with owner := peerPath.take (egpDbusPathCap - 1) })

/-- What an authorization does to the window. -/
theorem authorizeSensitive_performs (s : EgpSecurity) (peerPath : Bytes) (peer : EgpPeerSecurity)
    (claim : Bool) (now : Int) :
    Performs s (.authorizeSensitive peerPath peer claim now)
      (egpSecurityAuthorizeSensitive s peerPath peer claim now).1
      (egpSecurityAuthorizeSensitive s peerPath peer claim now).2.granted := by
  unfold egpSecurityAuthorizeSensitive
  by_cases hpath : isObjectPath peerPath = true
  · rw [if_neg (by simp [hpath])]
    cases hpeer : peerInitiallyEligible peer with
    | error error => exact .kept rfl rfl
    | ok u =>
        simp only
        by_cases hopen : s.openAt now = true
        · rw [if_neg (by simp [hopen])]
          by_cases hclaim : (s.owner.isEmpty && claim) = true
          · rw [if_pos hclaim]
            rw [Bool.and_eq_true, List.isEmpty_iff] at hclaim
            obtain ⟨hfree, rfl⟩ := hclaim
            exact .claimed peerPath peer now rfl rfl hpath hfree hpeer hopen rfl
          · rw [if_neg hclaim]
            split <;> exact .kept rfl rfl
        · rw [if_pos (by simp [hopen])]
          exact .kept rfl rfl
  · rw [if_pos (by simp [hpath])]
    exact .kept rfl rfl

/-- What each call does to the window. -/
theorem performs (s : EgpSecurity) (call : Call) :
    Performs s call (perform s call).1 (perform s call).2 := by
  cases call with
  | openWindow now =>
      simp only [perform, egpSecurityOpenWindow]
      split
      · exact .kept rfl rfl
      · exact .renewed rfl rfl
  | closeWindow =>
      simp only [perform, egpSecurityCloseWindow]
      split
      · exact .renewed rfl rfl
      · rename_i hidle
        have hfree : s.owner = [] := by
          rw [Bool.or_eq_true, not_or] at hidle
          simpa using hidle.2
        exact .kept rfl hfree.symm
  | expiryTick now =>
      simp only [perform, expiryTick]
      split
      · exact .kept rfl rfl
      · split
        · exact .renewed rfl rfl
        · exact .kept rfl rfl
  | bluezLost => exact .renewed rfl rfl
  | allowPairing peerPath now => exact .kept rfl rfl
  | authorizeSensitive peerPath peer claim now =>
      exact authorizeSensitive_performs s peerPath peer claim now
  | authorizeCommit peerPath peer windowEpoch connectionEpoch now => exact .kept rfl rfl

/-- What a granted commit has checked. -/
structure Commits (s : EgpSecurity) (peerPath : Bytes) (peer : EgpPeerSecurity)
    (windowEpoch connectionEpoch : Nat) (now : Int) : Prop where
  isOpen : s.isOpen = true
  positive : 0 < now
  deadline : now < s.deadlineUs
  epoch : s.windowEpoch = windowEpoch
  owner : s.owner = peerPath
  path : peerPath ≠ []
  connection : peer.connectionEpoch = connectionEpoch

theorem openAt_iff {s : EgpSecurity} {now : Int} :
    s.openAt now = true ↔ s.isOpen = true ∧ 0 < now ∧ now < s.deadlineUs := by
  simp [EgpSecurity.openAt, and_assoc]

/-- A commit is granted to the owner, in the epochs it was claimed in. -/
theorem authorizeCommit_granted {s : EgpSecurity} {peerPath : Bytes} {peer : EgpPeerSecurity}
    {windowEpoch connectionEpoch : Nat} {now : Int}
    (h : (egpSecurityAuthorizeCommit s peerPath peer windowEpoch connectionEpoch now).granted
      = true) : Commits s peerPath peer windowEpoch connectionEpoch now := by
  unfold egpSecurityAuthorizeCommit at h
  split at h
  · cases h
  · rename_i hargs
    split at h
    · cases h
    · split at h
      · cases h
      · rename_i hconnection
        split at h
        · cases h
        · rename_i hopen
          split at h
          · rename_i howner
            have hwindow := openAt_iff.mp (by simpa using hopen)
            simp only [Bool.and_eq_true, beq_iff_eq] at howner
            have hpath : isObjectPath peerPath = true := by
              simp only [Bool.or_eq_true, not_or] at hargs
              simpa using hargs.1.1
            exact ⟨hwindow.1, hwindow.2.1, hwindow.2.2, howner.1.1, howner.2,
              isObjectPath_ne_nil hpath, by simpa using hconnection⟩
          · cases h

end EdgeGuard.Provisioning.Security
