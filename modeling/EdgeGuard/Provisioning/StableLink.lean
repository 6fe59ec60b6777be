import EdgeGuard.Base.Epochs
import EdgeGuard.Provisioning.GattRead
import EdgeGuard.Provisioning.Security

/-!
# The link to a peer

`egp_bluez_peer_security` asks BlueZ for the properties of a peer and stamps the answer
with an epoch of the link.  The signals of BlueZ, the reads and the queries of the other
thread come in between as acts, also while BlueZ is asked.

An epoch stands for one owner of the BlueZ name and for a time in which BlueZ reported no
change of the connection, the bond or the identity of the peer.

## Main results

* `same_link_iff` — what equal epochs say.
* `acted_characteristicRead` — the reads are among the acts.
* `stable_link` — what a commit that is authorized says about the link since the write.
-/

namespace EdgeGuard.Provisioning.StableLink

open EdgeGuard.Base.CText EdgeGuard.Base.HashTable EdgeGuard.Base.Trace EdgeGuard.Base.Epochs
open EdgeGuard.Provisioning.Model EdgeGuard.Provisioning.Protocol
open EdgeGuard.Provisioning.GattRead EdgeGuard.Provisioning.Security

/-! ## Properties of a device -/

/-- A variant, as far as the properties of a device tell variants apart. -/
inductive Property
  | boolean (b : Bool)
  | text (s : Bytes)
  | other

abbrev Properties := List (Bytes × Property)

def property (properties : Properties) (name : String) : Option Property :=
  (properties.find? (·.1 == ascii name)).map Prod.snd

/-- `g_variant_lookup` with the format `b`. -/
def booleanProperty (properties : Properties) (name : String) : Option Bool :=
  match property properties name with
  | some (.boolean b) => some b
  | _ => none

/-- `g_variant_lookup` with the format `&s`. -/
def textProperty (properties : Properties) (name : String) : Option Bytes :=
  match property properties name with
  | some (.text s) => some s
  | _ => none

/-- `BLUEZ_DEVICE`. -/
def bluezDevice : Bytes := ascii "org.bluez.Device1"

/-- A `PropertiesChanged` signal. -/
structure PropertiesChanged where
  interface : Bytes
  changed : Properties
  invalidated : List Bytes

/-- `epoch_properties`. -/
def epochProperties : List String :=
  ["Paired", "Bonded", "Address", "AddressType", "ServicesResolved"]

/-- `security_change` of `properties_changed`. -/
def PropertiesChanged.securityChange (signal : PropertiesChanged) : Bool :=
  signal.interface == bluezDevice &&
    ((booleanProperty signal.changed "Connected").isSome ||
      epochProperties.any (fun name => (property signal.changed name).isSome) ||
      signal.invalidated.any fun name => ("Connected" :: epochProperties).any (ascii · == name))

/-! ## What happens to the adapter -/

inductive Act
  | disturbance (d : Disturbance)
  /-- `properties_changed`. -/
  | signal (objectPath : Bytes) (reported : PropertiesChanged)
  /-- `read_context`. -/
  | context (peerPath : Bytes) (create : Bool)
  /-- What a read leaves in the slot. -/
  | slot (readSnapshot : Option EgpGattReadSnapshot) (timeoutArmed : Bool)

def perform (bluez : EgpBluez) : Act → EgpBluez
  | .disturbance d => disturb bluez d
  | .signal objectPath reported =>
      if reported.securityChange then bumpPeerEpoch bluez objectPath else bluez
  | .context peerPath create => (readContext bluez peerPath create).1
  | .slot readSnapshot timeoutArmed =>
      { bluez with readSnapshot := readSnapshot, timeoutArmed := timeoutArmed }

/-- The act ends the epoch of the peer: BlueZ appears or vanishes, or it reports a change
of the link to the peer. -/
def Act.Ends (peerPath : Bytes) : Act → Prop
  | .disturbance (.nameAppeared _) | .disturbance .nameVanished => True
  | .disturbance (.peerChanged changed) => changed = peerPath
  | .signal objectPath reported => reported.securityChange = true ∧ objectPath = peerPath
  | _ => False

/-! ## Asking BlueZ -/

/-- The error of a query. -/
def queryError (code : EgpErrorCode) (message : String) : Option EgpError :=
  some (egpErrorSet code true .none (ascii message))

/-- What the properties say of the peer, without its epoch. -/
def peerOf (properties : Properties) (encryptedGattGate : Bool) : EgpPeerSecurity :=
  let paired := (booleanProperty properties "Paired").getD false
  let bonded := (booleanProperty properties "Bonded").getD false
  let hasAddress := (textProperty properties "Address").any (!·.isEmpty)
  let hasType := (textProperty properties "AddressType").any fun type =>
    type == ascii "public" || type == ascii "random"
  { connected := (booleanProperty properties "Connected").getD false
    paired := paired
    bonded := bonded
    stableIdentity := hasAddress && hasType && paired && bonded
    encryptedTransport := encryptedGattGate
    connectionEpoch := 0 }

/-- `egp_bluez_peer_security`, with what happens while BlueZ is asked and with its reply. -/
def egpBluezPeerSecurity (bluez : EgpBluez) (peerPath : Bytes) (encryptedGattGate : Bool)
    (meanwhile : List Act) (reply : Option Properties) :
    EgpBluez × Except (Option EgpError) EgpPeerSecurity :=
  if !isObjectPath peerPath then (bluez, .error none)
  else
    let destination := bluez.uniqueOwner.1
    let (bluez, epochBefore) := peerEpochLocked bluez peerPath true
    if destination.isEmpty || epochBefore == 0 then
      (bluez, .error (queryError .bluezUnavailable "Active BlueZ owner is unavailable"))
    else
      let bluez := run perform bluez meanwhile
      match reply with
      | none =>
          (bluez, .error (queryError .bleUnauthorized "BlueZ peer properties are unavailable"))
      | some properties =>
          let epochAfter := (peerEpochLocked bluez peerPath false).2
          let stable := destination == bluez.uniqueOwner.1 && epochBefore == epochAfter
          let peer := { peerOf properties encryptedGattGate with
            connectionEpoch := if stable then epochAfter else 0 }
          if !peer.stableIdentity || peer.connectionEpoch == 0 then
            (bluez, .error (queryError .bleNotPaired
              "Peer lacks a stable paired bond identity"))
          else (bluez, .ok peer)

/-! ## Epochs of the links -/

/-- The epochs of an adapter. -/
def epochs (bluez : EgpBluez) : EpochTable Bytes := ⟨bluez.peerEpochs, bluez.nextPeerEpoch⟩

/-- What an act does to the epochs. -/
def Act.op : Act → Option (Op Bytes)
  | .disturbance (.nameAppeared _) | .disturbance .nameVanished => some .clear
  | .disturbance (.peerChanged peerPath) => some (.renew peerPath)
  | .disturbance (.peerSecurity peerPath) =>
      if isObjectPath peerPath then some (.create peerPath) else none
  | .disturbance _ => none
  | .signal objectPath reported =>
      if reported.securityChange then some (.renew objectPath) else none
  | .context peerPath create => if create then some (.create peerPath) else none
  | .slot _ _ => none

def Act.ops (acts : List Act) : List (Op Bytes) := acts.filterMap Act.op

theorem epochs_bump (bluez : EgpBluez) (peerPath : Bytes) :
    epochs (bumpPeerEpoch bluez peerPath) =
      Base.Epochs.perform nextEpochLocked (epochs bluez) (.renew peerPath) := by
  unfold bumpPeerEpoch
  simp only
  split <;> rfl

theorem epochs_create (bluez : EgpBluez) (peerPath : Bytes) :
    epochs (peerEpochLocked bluez peerPath true).1 =
      Base.Epochs.perform nextEpochLocked (epochs bluez) (.create peerPath) := by
  have hlookup : (epochs bluez).table.lookup peerPath = bluez.peerEpochs.lookup peerPath := rfl
  simp only [Base.Epochs.perform, peerEpochLocked, hlookup]
  cases bluez.peerEpochs.lookup peerPath <;> rfl

/-- Every act is an operation on the epochs, or none. -/
theorem epochs_perform (bluez : EgpBluez) (act : Act) :
    epochs (perform bluez act) =
      (act.op.elim (epochs bluez) (Base.Epochs.perform nextEpochLocked (epochs bluez))) := by
  cases act with
  | disturbance d =>
      cases d with
      | nameAppeared owner => rfl
      | nameVanished => rfl
      | peerChanged peerPath => exact epochs_bump bluez peerPath
      | setWindow => rfl
      | invalidateRead characteristic peerPath =>
          show epochs (egpBluezInvalidateRead bluez characteristic peerPath) = epochs bluez
          unfold egpBluezInvalidateRead
          split
          · rfl
          · split
            · rfl
            · split <;> rfl
      | peerSecurity peerPath =>
          by_cases hpath : isObjectPath peerPath = true
          · simp only [perform, disturb, Act.op, if_pos hpath]
            exact epochs_create bluez peerPath
          · simp only [perform, disturb, Act.op, if_neg hpath]
            rfl
      | timeout =>
          show epochs (expireReadSnapshot bluez) = epochs bluez
          unfold expireReadSnapshot
          split <;> rfl
  | signal objectPath reported =>
      by_cases hchange : reported.securityChange = true
      · simp only [perform, Act.op, if_pos hchange]
        exact epochs_bump bluez objectPath
      · simp only [perform, Act.op, if_neg hchange]
        rfl
  | context peerPath create =>
      cases create with
      | true => exact epochs_create bluez peerPath
      | false =>
          show epochs (peerEpochLocked bluez peerPath false).1 = epochs bluez
          unfold peerEpochLocked
          cases bluez.peerEpochs.lookup peerPath <;> rfl
  | slot readSnapshot timeoutArmed => rfl

/-- A sequence of acts runs its operations on the epochs. -/
theorem epochs_run (bluez : EgpBluez) (acts : List Act) :
    epochs (run perform bluez acts) =
      run (Base.Epochs.perform nextEpochLocked) (epochs bluez) (Act.ops acts) := by
  induction acts generalizing bluez with
  | nil => rfl
  | cons act acts ih =>
      rw [run_cons, ih, epochs_perform]
      simp only [Act.ops, List.filterMap_cons]
      cases act.op with
      | none => rfl
      | some op => rfl

/-- What ends the epoch of a peer is what touches its number. -/
theorem ends_iff {act : Act} {peerPath : Bytes} :
    act.Ends peerPath ↔ ∃ op, act.op = some op ∧ op.Touches peerPath := by
  cases act with
  | disturbance d =>
      cases d with
      | nameAppeared owner => exact ⟨fun _ => ⟨.clear, rfl, trivial⟩, fun _ => trivial⟩
      | nameVanished => exact ⟨fun _ => ⟨.clear, rfl, trivial⟩, fun _ => trivial⟩
      | peerChanged changed => exact ⟨fun h => ⟨.renew changed, rfl, h⟩, fun ⟨_, rfl, h⟩ => h⟩
      | setWindow => exact ⟨False.elim, fun ⟨_, h, _⟩ => by cases h⟩
      | invalidateRead characteristic peer => exact ⟨False.elim, fun ⟨_, h, _⟩ => by cases h⟩
      | peerSecurity asked =>
          refine ⟨False.elim, fun ⟨op, hop, htouches⟩ => ?_⟩
          have hop : (if isObjectPath asked then some (Op.create asked) else none) = some op := hop
          split at hop
          · cases hop
            exact htouches
          · cases hop
      | timeout => exact ⟨False.elim, fun ⟨_, h, _⟩ => by cases h⟩
  | signal objectPath reported =>
      constructor
      · rintro ⟨hchange, hpath⟩
        exact ⟨.renew objectPath, if_pos hchange, hpath⟩
      · rintro ⟨op, hop, htouches⟩
        have hop : (if reported.securityChange then some (Op.renew objectPath) else none) =
          some op := hop
        split at hop
        · rename_i hchange
          cases hop
          exact ⟨hchange, htouches⟩
        · cases hop
  | context asked create =>
      refine ⟨False.elim, fun ⟨op, hop, htouches⟩ => ?_⟩
      have hop : (if create then some (Op.create asked) else none) = some op := hop
      split at hop
      · cases hop
        exact htouches
      · cases hop
  | slot readSnapshot timeoutArmed => exact ⟨False.elim, fun ⟨_, h, _⟩ => by cases h⟩

theorem spared_iff {acts : List Act} {peerPath : Bytes} :
    (∀ op ∈ Act.ops acts, ¬ op.Touches peerPath) ↔ ∀ act ∈ acts, ¬ act.Ends peerPath := by
  constructor
  · intro h act hact hends
    obtain ⟨op, hop, htouches⟩ := ends_iff.mp hends
    exact h op (List.mem_filterMap.mpr ⟨act, hact, hop⟩) htouches
  · intro h op hmem htouches
    obtain ⟨act, hact, hop⟩ := List.mem_filterMap.mp hmem
    exact h act hact (ends_iff.mpr ⟨op, hop, htouches⟩)

/-! ## The counter -/

theorem nextEpochLocked_le (n : Nat) : nextEpochLocked n ≤ n + 1 := by
  have hmod : (n + 1) % 2 ^ 64 ≤ n + 1 := Nat.mod_le _ _
  unfold nextEpochLocked
  simp only
  split
  · omega
  · exact hmod

theorem lt_nextEpochLocked {n : Nat} (h : n < 2 ^ 64 - 1) : n < nextEpochLocked n := by
  have hmod : (n + 1) % 2 ^ 64 = n + 1 := Nat.mod_eq_of_lt (by omega)
  unfold nextEpochLocked
  rw [hmod]
  simp

theorem length_ops_le (acts : List Act) : (Act.ops acts).length ≤ acts.length :=
  List.length_filterMap_le _ _

/-- The counter of a fresh adapter rises through every run that is not too long. -/
theorem rises (before acts : List Act) (h : before.length + acts.length < 2 ^ 64) :
    Rises nextEpochLocked (epochs (run perform egpBluezNew before)) (Act.ops acts) := by
  apply @rises_of_bound _ _ _ _ (2 ^ 64 - 1) nextEpochLocked_le fun n => lt_nextEpochLocked
  have hnext := next_run_le nextEpochLocked_le (epochs egpBluezNew) (Act.ops before)
  have hzero : (epochs egpBluezNew).next = 0 := rfl
  have hbefore := length_ops_le before
  have hacts := length_ops_le acts
  rw [epochs_run]
  omega

theorem drawn (before : List Act) (h : before.length < 2 ^ 64) :
    Drawn (epochs (run perform egpBluezNew before)) := by
  rw [epochs_run]
  have hnew : Drawn (epochs egpBluezNew) := by
    intro k n hn
    cases (AList.lookup_empty k).symm.trans hn
  exact hnew.behind (rises [] before (by simpa using h))

/-- A peer has the same epoch behind a run exactly when the run did not end it. -/
theorem same_link_iff {before acts : List Act} (h : before.length + acts.length < 2 ^ 64)
    {peerPath : Bytes} {epoch : Nat}
    (hepoch : (run perform egpBluezNew before).peerEpochs.lookup peerPath = some epoch) :
    (run perform egpBluezNew (before ++ acts)).peerEpochs.lookup peerPath = some epoch ↔
      ∀ act ∈ acts, ¬ act.Ends peerPath := by
  have hdrawn := drawn before (by omega) peerPath epoch hepoch
  rw [← spared_iff, ← same_epoch_iff (rises before acts h) hepoch hdrawn, ← epochs_run,
    ← run_append]
  rfl

/-! ## Reads are acts -/

theorem disturbed_eq (bluez : EgpBluez) (disturbances : List Disturbance) :
    disturbed bluez disturbances = run perform bluez (disturbances.map .disturbance) := by
  induction disturbances generalizing bluez with
  | nil => rfl
  | cons d disturbances ih => exact ih (disturb bluez d)

/-- The adapter behind a call is the one before it behind some acts, and what ends a link
happens while the value is serialized. -/
def Acted (bluez : EgpBluez) (call : ReadCall) (after : EgpBluez) : Prop :=
  ∃ acts, after = run perform bluez acts ∧
    ∀ act ∈ acts, ∀ peer, act.Ends peer →
      ∃ handled d, call.handled = some handled ∧ d ∈ handled.meanwhile ∧ act = .disturbance d

theorem Acted.refl (bluez : EgpBluez) (call : ReadCall) : Acted bluez call bluez :=
  ⟨[], rfl, by simp⟩

theorem Acted.snoc {bluez after : EgpBluez} {call : ReadCall} (h : Acted bluez call after)
    (act : Act) (hact : ∀ peer, ¬ act.Ends peer) : Acted bluez call (perform after act) := by
  obtain ⟨acts, rfl, hacts⟩ := h
  refine ⟨acts ++ [act], by rw [run_append]; rfl, ?_⟩
  intro act' hmem peer hends
  rcases List.mem_append.mp hmem with hmem | hmem
  · exact hacts act' hmem peer hends
  · rw [List.mem_singleton.mp hmem] at hends
    exact absurd hends (hact peer)

theorem Acted.disturbed {bluez after : EgpBluez} {call : ReadCall} {handled : Handled}
    (h : Acted bluez call after) (hhandled : call.handled = some handled) :
    Acted bluez call (disturbed after handled.meanwhile) := by
  obtain ⟨acts, rfl, hacts⟩ := h
  refine ⟨acts ++ handled.meanwhile.map .disturbance, by rw [run_append, disturbed_eq], ?_⟩
  intro act hmem peer hends
  rcases List.mem_append.mp hmem with hmem | hmem
  · exact hacts act hmem peer hends
  · obtain ⟨d, hd, rfl⟩ := List.mem_map.mp hmem
    exact ⟨handled, d, hhandled, hd, rfl⟩

theorem Acted.slot {bluez after : EgpBluez} {call : ReadCall} (h : Acted bluez call after)
    (readSnapshot : Option EgpGattReadSnapshot) (timeoutArmed : Bool) :
    Acted bluez call { after with readSnapshot := readSnapshot, timeoutArmed := timeoutArmed } :=
  h.snoc (.slot readSnapshot timeoutArmed) fun _ => id

/-- Beginning a read is some acts, and ends a link only while the value is serialized. -/
theorem acted_beginRead {bluez after : EgpBluez} {call : ReadCall} (h : Acted bluez call after)
    (peerPath : Bytes) (context : ReadContext) :
    Acted bluez call (beginRead after call peerPath context).1 := by
  unfold beginRead
  split
  · exact h
  · rename_i handled hhandled
    have hbehind := h.disturbed hhandled
    simp only
    split
    · exact hbehind
    · split
      · exact hbehind
      · split
        · exact hbehind.slot none _
        · exact hbehind.slot _ true

/-- A read is no more than acts. -/
theorem acted_characteristicRead (bluez : EgpBluez) (call : ReadCall) :
    Acted bluez call (characteristicRead bluez call).1 := by
  unfold characteristicRead
  split
  · exact .refl bluez call
  · rename_i parsed hparsed
    have hcontext : Acted bluez call
        (readContext bluez parsed.peerPath (parsed.offset == 0)).1 :=
      (Acted.refl bluez call).snoc (.context parsed.peerPath (parsed.offset == 0))
        fun _ => id
    generalize readContext bluez parsed.peerPath (parsed.offset == 0) = read at hcontext
    obtain ⟨after, found⟩ := read
    simp only at hcontext ⊢
    split
    · exact hcontext
    · rename_i context
      split
      · have hbegun := acted_beginRead hcontext parsed.peerPath context
        generalize beginRead after call parsed.peerPath context = begun at hbegun
        split
        · exact hbegun
        · exact hbegun.slot _ _
      · exact hcontext.slot _ _

/-! ## Queries -/

theorem owner_create (bluez : EgpBluez) (peerPath : Bytes) (create : Bool) :
    (peerEpochLocked bluez peerPath create).1.uniqueOwner = bluez.uniqueOwner := by
  unfold peerEpochLocked
  split
  · rfl
  · split <;> rfl

/-- BlueZ has one owner as long as the epoch of a peer lasts. -/
theorem owner_perform {bluez : EgpBluez} {act : Act} {peerPath : Bytes}
    (h : ¬ act.Ends peerPath) : (perform bluez act).uniqueOwner = bluez.uniqueOwner := by
  have hbump : ∀ path, (bumpPeerEpoch bluez path).uniqueOwner = bluez.uniqueOwner := by
    intro path
    unfold bumpPeerEpoch
    simp only
    split <;> rfl
  cases act with
  | disturbance d =>
      cases d with
      | nameAppeared owner => exact absurd trivial h
      | nameVanished => exact absurd trivial h
      | peerChanged changed => exact hbump changed
      | setWindow => rfl
      | invalidateRead characteristic peer =>
          show (egpBluezInvalidateRead bluez characteristic peer).uniqueOwner = bluez.uniqueOwner
          unfold egpBluezInvalidateRead
          split
          · rfl
          · split
            · rfl
            · split <;> rfl
      | peerSecurity asked =>
          simp only [perform, disturb]
          split
          · exact owner_create bluez asked true
          · rfl
      | timeout =>
          show (expireReadSnapshot bluez).uniqueOwner = bluez.uniqueOwner
          unfold expireReadSnapshot
          split <;> rfl
  | signal objectPath reported =>
      simp only [perform]
      split
      · exact hbump objectPath
      · rfl
  | context asked create => exact owner_create bluez asked create
  | slot readSnapshot timeoutArmed => rfl

theorem owner_run {bluez : EgpBluez} {acts : List Act} {peerPath : Bytes}
    (h : ∀ act ∈ acts, ¬ act.Ends peerPath) :
    (run perform bluez acts).uniqueOwner = bluez.uniqueOwner := by
  induction acts generalizing bluez with
  | nil => rfl
  | cons act acts ih =>
      obtain ⟨hact, hacts⟩ := List.forall_mem_cons.mp h
      rw [run_cons, ih hacts, owner_perform hact]

/-- The act with which a query begins. -/
def asks (peerPath : Bytes) : Act := .disturbance (.peerSecurity peerPath)

theorem not_ends_asks (peerPath peer : Bytes) : ¬ (asks peerPath).Ends peer := id

theorem lookup_create (bluez : EgpBluez) (peerPath : Bytes) (h : isObjectPath peerPath = true) :
    (perform bluez (asks peerPath)).peerEpochs.lookup peerPath =
      some (peerEpochLocked bluez peerPath true).2 := by
  simp only [perform, asks, disturb, if_pos h]
  unfold peerEpochLocked
  cases hfound : bluez.peerEpochs.lookup peerPath with
  | some stored => exact hfound
  | none => exact AList.lookup_insert bluez.peerEpochs

/-- What a query that succeeds says: the epoch is that of the peer when it began and when
it ended, and the peer is paired and bonded under an identity. -/
structure Answered (bluez : EgpBluez) (peerPath : Bytes) (meanwhile : List Act)
    (after : EgpBluez) (peer : EgpPeerSecurity) : Prop where
  reached : after = run perform bluez (asks peerPath :: meanwhile)
  begun : (perform bluez (asks peerPath)).peerEpochs.lookup peerPath = some peer.connectionEpoch
  ended : after.peerEpochs.lookup peerPath = some peer.connectionEpoch
  identity : peer.paired = true ∧ peer.bonded = true ∧ peer.stableIdentity = true

/-- A peer that is found secure kept its epoch while BlueZ answered. -/
theorem answered_of_ok {bluez after : EgpBluez} {peerPath : Bytes} {encryptedGattGate : Bool}
    {meanwhile : List Act} {reply : Option Properties} {peer : EgpPeerSecurity}
    (h : egpBluezPeerSecurity bluez peerPath encryptedGattGate meanwhile reply =
      (after, .ok peer)) : Answered bluez peerPath meanwhile after peer := by
  unfold egpBluezPeerSecurity at h
  split at h
  · cases h
  · rename_i hpath
    have hpath : isObjectPath peerPath = true := by simpa using hpath
    have hbegun := lookup_create bluez peerPath hpath
    have hasked : perform bluez (asks peerPath) = (peerEpochLocked bluez peerPath true).1 := by
      simp only [perform, asks, disturb, if_pos hpath]
    have hrun : run perform bluez (asks peerPath :: meanwhile) =
        run perform (peerEpochLocked bluez peerPath true).1 meanwhile := by
      rw [run_cons, hasked]
    generalize peerEpochLocked bluez peerPath true = created at h hbegun hasked hrun
    obtain ⟨asked, epochBefore⟩ := created
    simp only at h hbegun hasked hrun
    split at h
    · cases h
    · generalize run perform asked meanwhile = behind at h hrun
      split at h
      · cases h
      · rename_i properties
        split at h
        · rename_i hstable
          simp only [Bool.and_eq_true, beq_iff_eq] at hstable
          split at h
          · cases h
          · rename_i hfine
            obtain ⟨hafter, hpeer⟩ := Prod.mk.inj h
            have hpeer := Except.ok.inj hpeer
            simp only [Bool.or_eq_true, not_or, Bool.not_eq_true', Bool.not_eq_false,
              beq_iff_eq] at hfine
            obtain ⟨hidentity, hepoch⟩ := hfine
            have hvalue : peer.connectionEpoch = epochBefore := by
              rw [← hpeer, hstable.2]
            have hended := hstable.2
            refine ⟨by rw [hrun, hafter], by rw [hbegun, hvalue], ?_, ?_⟩
            · rw [← hafter, hvalue]
              unfold peerEpochLocked at hended hepoch
              cases hfound : behind.peerEpochs.lookup peerPath with
              | some stored =>
                  simp only [hfound] at hended
                  rw [hended]
              | none => simp [hfound] at hepoch
            · rw [← hpeer]
              simp only [peerOf, Bool.and_eq_true] at hidentity ⊢
              exact ⟨hidentity.1.2, hidentity.2, hidentity⟩
        · simp at h

/-- The link lasts while BlueZ is asked. -/
theorem Answered.unbroken {before meanwhile : List Act} {peerPath : Bytes} {after : EgpBluez}
    {peer : EgpPeerSecurity}
    (h : Answered (run perform egpBluezNew before) peerPath meanwhile after peer)
    (hcounter : before.length + meanwhile.length + 1 < 2 ^ 64) :
    ∀ act ∈ meanwhile, ¬ act.Ends peerPath := by
  have hlength : (before ++ [asks peerPath]).length + meanwhile.length < 2 ^ 64 := by
    rw [List.length_append, List.length_singleton]
    omega
  have hasked : run perform egpBluezNew (before ++ [asks peerPath]) =
      perform (run perform egpBluezNew before) (asks peerPath) := by
    rw [run_append]
    rfl
  have hbegun := h.begun
  have hended := h.ended
  rw [← hasked] at hbegun
  rw [h.reached, run_cons, ← hasked, ← run_append] at hended
  exact (same_link_iff hlength hbegun).mp hended

/-- Two queries of a peer, whatever happens before them, between them and while BlueZ is
asked: each that succeeds saw one link throughout; the epochs are equal exactly when
nothing ended the link in between; and a commit that is authorized for the epoch of the
first says that BlueZ had one owner and reported no change of the link from the beginning
of the first query to the end of the second. -/
theorem stable_link (before first between second : List Act) (peerPath : Bytes)
    (writeGate commitGate : Bool) (writeReply commitReply : Option Properties)
    (written committed : EgpBluez) (writer committer : EgpPeerSecurity)
    (hcounter : before.length + first.length + between.length + second.length + 2 < 2 ^ 64)
    (hwrite : egpBluezPeerSecurity (run perform egpBluezNew before) peerPath writeGate first
      writeReply = (written, .ok writer))
    (hcommit : egpBluezPeerSecurity (run perform written between) peerPath commitGate second
      commitReply = (committed, .ok committer)) :
    (∀ act ∈ first ++ second, ¬ act.Ends peerPath) ∧
    (committer.connectionEpoch = writer.connectionEpoch ↔
      ∀ act ∈ between, ¬ act.Ends peerPath) ∧
    ∀ (security : EgpSecurity) (windowEpoch : Nat) (now : Int),
      (egpSecurityAuthorizeCommit security peerPath committer windowEpoch
        writer.connectionEpoch now).granted = true →
      (∀ act ∈ first ++ between ++ second, ¬ act.Ends peerPath) ∧
        committed.uniqueOwner = (run perform egpBluezNew before).uniqueOwner ∧
        committer.paired = true ∧ committer.bonded = true ∧ committer.stableIdentity = true := by
  have hfirst := answered_of_ok hwrite
  have hsecond := answered_of_ok hcommit
  have hreached : run perform written between =
      run perform egpBluezNew (before ++ (asks peerPath :: first ++ between)) := by
    rw [hfirst.reached]
    simp
  have hunbroken := hfirst.unbroken (by omega)
  have hunbroken' : ∀ act ∈ second, ¬ act.Ends peerPath := by
    rw [hreached] at hsecond
    refine hsecond.unbroken ?_
    simp only [List.length_append, List.length_cons]
    omega
  have hspared : ∀ act, act = asks peerPath → ¬ act.Ends peerPath := by
    rintro _ rfl
    exact not_ends_asks peerPath peerPath
  have hsame : committer.connectionEpoch = writer.connectionEpoch ↔
      ∀ act ∈ between, ¬ act.Ends peerPath := by
    have hbegun := hfirst.begun
    have hasked : run perform egpBluezNew (before ++ [asks peerPath]) =
        perform (run perform egpBluezNew before) (asks peerPath) := by
      rw [run_append]
      rfl
    rw [← hasked] at hbegun
    have hlength : (before ++ [asks peerPath]).length +
        (first ++ between ++ [asks peerPath]).length < 2 ^ 64 := by
      simp only [List.length_append, List.length_singleton]
      omega
    have hasked' : run perform egpBluezNew
        (before ++ [asks peerPath] ++ (first ++ between ++ [asks peerPath])) =
        perform (run perform written between) (asks peerPath) := by
      rw [hreached]
      simp
    have hiff := same_link_iff hlength hbegun
    rw [hasked', hsecond.begun, Option.some.injEq] at hiff
    rw [hiff]
    simp only [List.forall_mem_append, List.forall_mem_singleton]
    exact ⟨fun h => h.1.2, fun h => ⟨⟨hunbroken, h⟩, hspared _ rfl⟩⟩
  refine ⟨List.forall_mem_append.mpr ⟨hunbroken, hunbroken'⟩, hsame, ?_⟩
  intro security windowEpoch now hgranted
  have hbetween := hsame.mp (authorizeCommit_granted hgranted).connection
  refine ⟨?_, ?_, hsecond.identity⟩
  · exact List.forall_mem_append.mpr
      ⟨List.forall_mem_append.mpr ⟨hunbroken, hbetween⟩, hunbroken'⟩
  · rw [hsecond.reached, run_cons, owner_run hunbroken', owner_perform (hspared _ rfl),
      owner_run hbetween, hfirst.reached, run_cons, owner_run hunbroken,
      owner_perform (hspared _ rfl)]

/-! ### A neighbour that leaves -/

def samplePeer : Bytes := ascii "/org/bluez/hci0/dev_AA"

def sampleReply : Properties :=
  [(ascii "Address", .text (ascii "AA:BB:CC:DD:EE:FF")),
    (ascii "AddressType", .text (ascii "public")), (ascii "Paired", .boolean true),
    (ascii "Bonded", .boolean true), (ascii "Connected", .boolean true)]

def bluezStarts : List Act := [.disturbance (.nameAppeared (ascii ":1.7"))]

/-- The link to another peer ends. -/
def neighbourLeaves : List Act :=
  [.signal (ascii "/org/bluez/hci0/dev_BB")
    ⟨bluezDevice, [(ascii "Connected", .boolean false)], []⟩]

def sampleSecurity : EgpSecurity := ⟨true, 1000, 3, samplePeer⟩

def linkedPeer (encrypted : Bool) : EgpPeerSecurity := ⟨true, true, true, true, encrypted, 2⟩

/-- Between a write and its commit the link of a neighbour ends. -/
theorem stable_link_neighbour :
    let started := run perform egpBluezNew bluezStarts
    let written := (egpBluezPeerSecurity started samplePeer true [] (some sampleReply)).1
    let committed := (egpBluezPeerSecurity (run perform written neighbourLeaves) samplePeer false
      [] (some sampleReply)).1
    (egpSecurityAuthorizeCommit sampleSecurity samplePeer (linkedPeer false) 3 2 7).granted =
        true ∧ (∀ act ∈ [] ++ neighbourLeaves ++ [], ¬ act.Ends samplePeer) ∧
      committed.uniqueOwner = started.uniqueOwner := by
  have hgranted : (egpSecurityAuthorizeCommit sampleSecurity samplePeer (linkedPeer false) 3 2
      7).granted = true := by decide
  obtain ⟨-, -, hcommits⟩ := stable_link bluezStarts [] neighbourLeaves [] samplePeer true false
    (some sampleReply) (some sampleReply) _ _ (linkedPeer true) (linkedPeer false) (by decide)
    (Prod.ext rfl rfl) (Prod.ext rfl rfl)
  obtain ⟨hlink, howner, -⟩ := hcommits sampleSecurity 3 7 hgranted
  exact ⟨hgranted, hlink, howner⟩

end EdgeGuard.Provisioning.StableLink
