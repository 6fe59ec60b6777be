import EdgeGuard.Agent.Release
import Mathlib.Data.List.Basic

/-!
# Versions only rise

The grammar of `ota_version_parse`, the order of `ota_version_compare`, and what the two
make of a device that follows `ota_compatibility_precheck` from manifest to manifest.

## Main results

* `versionOf_iff` — a version is read from its decimal text and from nothing else.
* `compare_transitive`, `compare_lawful` — the order is total.
* `versions_only_rise` — no version that was ever installed comes back.
-/

namespace EdgeGuard.Agent.VersionOrder

open EdgeGuard.Base.CText EdgeGuard.Agent.Model EdgeGuard.Agent.Release

/-! ## Components -/

/-- A decimal number of 32 bits without leading zeros. -/
structure Canonical (part : Bytes) : Prop where
  nonempty : part ≠ []
  digits : part.all isDigit = true
  leading : part.head? = some 0x30 → part = [0x30]
  bound : decimalValue 0 part ≤ uint32Max

theorem canonical_decimal {n : Nat} (h : n ≤ uint32Max) : Canonical (decimal n) where
  nonempty := decimal_ne_nil n
  digits := List.all_eq_true.mpr (isDigit_of_mem_decimal n)
  leading := by
    intro hhead
    obtain ⟨rest, hrest⟩ := List.head?_eq_some_iff.mp hhead
    rw [hrest, decimal_leading n hrest]
  bound := by
    rw [decimalValue_decimal]
    exact h

theorem Canonical.decimal_eq {part : Bytes} (h : Canonical part) :
    decimal (decimalValue 0 part) = part := by
  by_cases hzero : part.head? = some 0x30
  · rw [h.leading hzero]
    decide
  · exact (decimal_decimalValue h.nonempty h.digits hzero).2

/-- The loop reads every digit, unless the value leaves 32 bits. -/
theorem componentDigits_eq (text : Bytes) {value : Nat} (h : value ≤ uint32Max) :
    componentDigits value text =
      if decimalValue value (text.takeWhile isDigit) ≤ uint32Max then
        some (decimalValue value (text.takeWhile isDigit), text.dropWhile isDigit)
      else none := by
  induction text generalizing value with
  | nil =>
      show some (value, []) = if value ≤ uint32Max then some (value, []) else none
      rw [if_pos h]
  | cons b rest ih =>
      unfold componentDigits
      by_cases hdigit : isDigit b = true
      · rw [if_pos hdigit, List.takeWhile_cons_of_pos hdigit, List.dropWhile_cons_of_pos hdigit]
        have hle := digitOf_le hdigit
        have hmax : 10 ≤ uint32Max := by decide
        have hgrows := le_decimalValue (rest.takeWhile isDigit) (value * 10 + digitOf b)
        have hvalue : decimalValue value (b :: rest.takeWhile isDigit) =
            decimalValue (value * 10 + digitOf b) (rest.takeWhile isDigit) := rfl
        rw [hvalue]
        by_cases hover : (uint32Max - digitOf b) / 10 < value
        · rw [if_pos hover, if_neg]
          omega
        · rw [if_neg hover]
          apply ih
          omega
      · rw [if_neg hdigit, List.takeWhile_cons_of_neg hdigit, List.dropWhile_cons_of_neg hdigit]
        show _ = if value ≤ uint32Max then some (value, b :: rest) else none
        rw [if_pos h]

theorem takeWhile_digits {ds rest : Bytes} (hds : ds.all isDigit = true)
    (hrest : rest.head?.any isDigit = false) :
    (ds ++ rest).takeWhile isDigit = ds ∧ (ds ++ rest).dropWhile isDigit = rest := by
  have hall : ∀ b ∈ ds, isDigit b = true := List.all_eq_true.mp hds
  rw [List.takeWhile_append_of_pos hall, List.dropWhile_append_of_pos hall]
  cases rest with
  | nil => simp
  | cons b rest =>
      have hb : ¬ isDigit b = true := by simpa using hrest
      rw [List.takeWhile_cons_of_neg hb, List.dropWhile_cons_of_neg hb, List.append_nil]
      exact ⟨rfl, rfl⟩

theorem head_dropWhile_digits (text : Bytes) :
    (text.dropWhile isDigit).head?.any isDigit = false := by
  have h := List.head?_dropWhile_not isDigit text
  cases hhead : (text.dropWhile isDigit).head? with
  | none => rfl
  | some b =>
      rw [hhead] at h
      simpa using h

/-- The test in front of the loop. -/
def startsComponent : Bytes → Bool
  | [] => false
  | b :: rest => isDigit b && !(b == 0x30 && rest.head?.any isDigit)

theorem component_eq (text : Bytes) :
    component text = if startsComponent text then componentDigits 0 text else none := by
  cases text with
  | nil => rfl
  | cons b rest =>
      show (if _ then none else _) = (if (_ && _) = true then _ else none)
      cases isDigit b with
      | false => rfl
      | true => cases b == 0x30 && rest.head?.any isDigit <;> rfl

/-- What starts a component starts a canonical number, its size apart. -/
theorem startsComponent_iff {ds rest : Bytes} (hds : ds.all isDigit = true)
    (hrest : rest.head?.any isDigit = false) :
    startsComponent (ds ++ rest) = true ↔
      ds ≠ [] ∧ (ds.head? = some 0x30 → ds = [0x30]) := by
  cases ds with
  | nil =>
      cases rest with
      | nil => simp [startsComponent]
      | cons b rest =>
          have hb : isDigit b = false := by simpa using hrest
          simp [startsComponent, hb]
  | cons b ds =>
      have hb : isDigit b = true := List.all_eq_true.mp hds b (by simp)
      have hnext : (ds ++ rest).head?.any isDigit = !ds.isEmpty := by
        cases ds with
        | nil => exact hrest
        | cons c ds => simpa using List.all_eq_true.mp hds c (by simp)
      show (isDigit b && !(b == 0x30 && (ds ++ rest).head?.any isDigit)) = true ↔ _
      rw [hb, hnext]
      by_cases hzero : b = 0x30
      · subst hzero
        simp
      · simp [hzero]

/-- A component is a number of 32 bits as it is printed. -/
theorem component_iff {text rest : Bytes} {n : Nat} :
    component text = some (n, rest) ↔
      n ≤ uint32Max ∧ text = decimal n ++ rest ∧ rest.head?.any isDigit = false := by
  rw [component_eq]
  constructor
  · intro h
    have hparts := List.takeWhile_append_dropWhile (p := isDigit) (l := text)
    have hdigits : (text.takeWhile isDigit).all isDigit = true := List.all_takeWhile
    have hstop := head_dropWhile_digits text
    by_cases hstart : startsComponent text = true
    · rw [if_pos hstart, componentDigits_eq text (Nat.zero_le _)] at h
      by_cases hbound : decimalValue 0 (text.takeWhile isDigit) ≤ uint32Max
      · rw [if_pos hbound] at h
        obtain ⟨rfl, rfl⟩ := Prod.mk.inj (Option.some.inj h)
        rw [← hparts, startsComponent_iff hdigits hstop] at hstart
        have hcanonical : Canonical (text.takeWhile isDigit) :=
          ⟨hstart.1, hdigits, hstart.2, hbound⟩
        exact ⟨hbound, by rw [hcanonical.decimal_eq, hparts], hstop⟩
      · rw [if_neg hbound] at h
        cases h
    · rw [if_neg hstart] at h
      cases h
  · rintro ⟨hbound, rfl, hstop⟩
    have hcanonical := canonical_decimal hbound
    have hstart := (startsComponent_iff hcanonical.digits hstop).mpr
      ⟨hcanonical.nonempty, hcanonical.leading⟩
    obtain ⟨htake, hdrop⟩ := takeWhile_digits hcanonical.digits hstop
    rw [if_pos hstart, componentDigits_eq _ (Nat.zero_le _), htake, hdrop, if_pos hcanonical.bound,
      decimalValue_decimal]

/-- A component with its dot is a number of 32 bits as it is printed. -/
theorem componentDot_iff {text rest : Bytes} {n : Nat} :
    componentDot text = some (n, rest) ↔ n ≤ uint32Max ∧ text = decimal n ++ 0x2e :: rest := by
  constructor
  · intro h
    unfold componentDot at h
    split at h
    · rename_i value b behind hread
      split at h
      · rename_i hdot
        obtain ⟨rfl, rfl⟩ := Prod.mk.inj (Option.some.inj h)
        obtain ⟨hbound, htext, -⟩ := component_iff.mp hread
        rw [eq_of_beq hdot] at htext
        exact ⟨hbound, htext⟩
      · cases h
    · cases h
  · rintro ⟨hbound, rfl⟩
    have hread : component (decimal n ++ 0x2e :: rest) = some (n, 0x2e :: rest) :=
      component_iff.mpr ⟨hbound, rfl, rfl⟩
    rw [componentDot, hread]
    rfl

/-! ## Versions -/

/-- The text of a version. -/
def printed (version : OtaVersion) : Bytes :=
  decimal version.major ++ 0x2e :: (decimal version.minor ++ 0x2e :: decimal version.patch)

/-- The parts of a version are numbers of 32 bits. -/
def InRange (version : OtaVersion) : Prop :=
  version.major ≤ uint32Max ∧ version.minor ≤ uint32Max ∧ version.patch ≤ uint32Max

/-- A version is parsed exactly from its print. -/
theorem versionOf_iff {text : Bytes} {version : OtaVersion} :
    versionOf text = some version ↔ InRange version ∧ text = printed version := by
  obtain ⟨major, minor, patch⟩ := version
  constructor
  · intro h
    obtain ⟨⟨a, rest⟩, hmajor, h⟩ := Option.bind_eq_some_iff.mp h
    obtain ⟨⟨b, rest'⟩, hminor, h⟩ := Option.bind_eq_some_iff.mp h
    obtain ⟨⟨c, rest''⟩, hpatch, h⟩ := Option.bind_eq_some_iff.mp h
    by_cases hend : rest''.isEmpty = true
    · obtain rfl := List.isEmpty_iff.mp hend
      cases h
      obtain ⟨h1, rfl⟩ := componentDot_iff.mp hmajor
      obtain ⟨h2, rfl⟩ := componentDot_iff.mp hminor
      obtain ⟨h3, rfl, -⟩ := component_iff.mp hpatch
      exact ⟨⟨h1, h2, h3⟩, by rw [printed, List.append_nil]⟩
    · simp [hend] at h
  · rintro ⟨⟨h1, h2, h3⟩, rfl⟩
    have hmajor : componentDot (printed ⟨major, minor, patch⟩) =
        some (major, decimal minor ++ 0x2e :: decimal patch) :=
      componentDot_iff.mpr ⟨h1, rfl⟩
    have hminor : componentDot (decimal minor ++ 0x2e :: decimal patch) =
        some (minor, decimal patch) :=
      componentDot_iff.mpr ⟨h2, rfl⟩
    have hpatch : component (decimal patch) = some (patch, []) :=
      component_iff.mpr ⟨h3, (List.append_nil _).symm, rfl⟩
    simp only [versionOf, Option.bind_eq_bind, hmajor, hminor, hpatch, Option.bind_some]
    rfl

theorem otaVersionParse_ok_iff {text : Bytes} {version : OtaVersion} :
    otaVersionParse text = .ok version ↔ versionOf text = some version := by
  unfold otaVersionParse
  cases versionOf text with
  | none => simp
  | some read => simp

/-- Three canonical numbers with dots between them. -/
theorem accepted_iff {text : Bytes} :
    (∃ version, otaVersionParse text = .ok version) ↔
      ∃ a b c, Canonical a ∧ Canonical b ∧ Canonical c ∧
        text = a ++ 0x2e :: (b ++ 0x2e :: c) := by
  constructor
  · rintro ⟨version, h⟩
    obtain ⟨⟨h1, h2, h3⟩, htext⟩ := versionOf_iff.mp (otaVersionParse_ok_iff.mp h)
    exact ⟨_, _, _, canonical_decimal h1, canonical_decimal h2, canonical_decimal h3, htext⟩
  · rintro ⟨a, b, c, ha, hb, hc, rfl⟩
    refine ⟨⟨decimalValue 0 a, decimalValue 0 b, decimalValue 0 c⟩, ?_⟩
    apply otaVersionParse_ok_iff.mpr
    apply versionOf_iff.mpr
    refine ⟨⟨ha.bound, hb.bound, hc.bound⟩, ?_⟩
    show _ = decimal (decimalValue 0 a) ++ 0x2e ::
      (decimal (decimalValue 0 b) ++ 0x2e :: decimal (decimalValue 0 c))
    rw [ha.decimal_eq, hb.decimal_eq, hc.decimal_eq]

/-! ## The order -/

theorem compare_eq_lex :
    otaVersionCompare = compareLex (compareOn OtaVersion.major)
      (compareLex (compareOn OtaVersion.minor) (compareOn OtaVersion.patch)) := rfl

theorem compare_transitive : Std.TransCmp otaVersionCompare := by
  rw [compare_eq_lex]
  infer_instance

/-- Versions that compare equal are equal. -/
theorem compare_lawful : Std.LawfulEqCmp otaVersionCompare where
  compare_self := by
    intro version
    simp [otaVersionCompare]
  eq_of_compare := by
    intro left right h
    obtain ⟨major, minor, patch⟩ := left
    obtain ⟨major', minor', patch'⟩ := right
    simp only [otaVersionCompare, Ordering.then_eq_eq, Nat.compare_eq_eq] at h
    obtain ⟨rfl, rfl, rfl⟩ := h
    rfl

/-! ## Following the manifests -/

/-- A release with the version and the build id of an update. -/
def adopted (running : OtaRelease) (remote : OtaManifest) : OtaRelease :=
  { running with version := remote.version, buildId := remote.buildId }

/-- What a manifest makes of the running release. -/
def follow (running : OtaRelease) (remote : OtaManifest) : OtaRelease :=
  match otaCompatibilityPrecheck running remote with
  | .ok true => adopted running remote
  | _ => running

/-- Every release that was ever installed on the way, the first one included. -/
def installed (running : OtaRelease) (manifests : List OtaManifest) : List OtaRelease :=
  manifests.scanl follow running

/-- The version of the release comes before the one of the manifest. -/
def Below (release : OtaRelease) (remote : OtaManifest) : Prop :=
  ∃ old new, otaVersionParse release.version = .ok old ∧
    otaVersionParse remote.version = .ok new ∧ otaVersionCompare old new = .lt

/-- The version of the first release is not above that of the second. -/
def NotAbove (earlier later : OtaRelease) : Prop :=
  ∃ old new, versionOf earlier.version = some old ∧ versionOf later.version = some new ∧
    (otaVersionCompare old new).isLE = true

/-- What the checks of a manifest have seen when they find an update. -/
structure Update (running : OtaRelease) (remote : OtaManifest) : Prop where
  release : otaReleaseValidate running = .ok ()
  manifest : otaManifestValidate remote = .ok ()
  device : running.deviceCompatible = remote.deviceCompatible
  rises : Below running remote

/-- What a precheck that passes has established. -/
theorem precheck_ok {running : OtaRelease} {remote : OtaManifest} {update : Bool}
    (h : otaCompatibilityPrecheck running remote = .ok update) :
    otaReleaseValidate running = .ok () ∧ otaManifestValidate remote = .ok () ∧
      running.deviceCompatible = remote.deviceCompatible ∧
      ∃ old new, otaVersionParse running.version = .ok old ∧
        otaVersionParse remote.version = .ok new ∧
        update = (otaVersionCompare new old == .gt) := by
  simp only [otaCompatibilityPrecheck, bind, Except.bind, pure, Except.pure, throw, throwThe,
    MonadExceptOf.throw] at h
  cases hrelease : otaReleaseValidate running with
  | error e => simp [hrelease] at h
  | ok _ =>
      cases hmanifest : otaManifestValidate remote with
      | error e => simp [hrelease, hmanifest] at h
      | ok _ =>
          simp only [hrelease, hmanifest] at h
          by_cases hdevice : running.deviceCompatible = remote.deviceCompatible
          · simp only [hdevice, bne_self_eq_false, Bool.false_eq_true, if_false] at h
            cases hold : otaVersionParse running.version with
            | error e => simp [hold] at h
            | ok old =>
                cases hnew : otaVersionParse remote.version with
                | error e => simp [hold, hnew] at h
                | ok new =>
                    simp only [hold, hnew] at h
                    refine ⟨rfl, rfl, hdevice, old, new, rfl, rfl, ?_⟩
                    split at h
                    · cases h
                    · split at h
                      · cases h
                      · exact (Except.ok.inj h).symm
          · simp [hdevice] at h

theorem update_of_precheck {running : OtaRelease} {remote : OtaManifest}
    (h : otaCompatibilityPrecheck running remote = .ok true) : Update running remote := by
  obtain ⟨hrelease, hmanifest, hdevice, old, new, hold, hnew, horder⟩ := precheck_ok h
  have hgreater : otaVersionCompare new old = .gt := eq_of_beq horder.symm
  have := compare_transitive
  have hless : otaVersionCompare old new = .lt := Std.OrientedCmp.gt_iff_lt.mp hgreater
  exact ⟨hrelease, hmanifest, hdevice, old, new, hold, hnew, hless⟩

/-- A release that is adopted is valid. -/
theorem valid_adopted {running : OtaRelease} {remote : OtaManifest} (h : Update running remote) :
    otaReleaseValidate (adopted running remote) = .ok () := by
  obtain ⟨-, new, -, hnew, -⟩ := h.rises
  have hrelease := h.release
  have hmanifest := h.manifest
  unfold otaReleaseValidate at hrelease ⊢
  unfold otaManifestValidate at hmanifest
  have hparsed : (versionOf remote.version).isSome = true := by
    rw [otaVersionParse_ok_iff.mp hnew]
    rfl
  split at hrelease
  · split at hmanifest
    · rename_i hr hm
      simp only [Bool.and_eq_true] at hr hm
      rw [if_pos]
      simp only [Bool.and_eq_true]
      exact ⟨⟨⟨⟨⟨hr.1.1.1.1.1, hr.1.1.1.1.2⟩, hr.1.1.1.2⟩, hm.1.1.1.1.1.1.1.2⟩,
        hm.1.1.1.1.1.1.2⟩, hparsed⟩
    · cases hmanifest
  · cases hrelease

/-- The manifest of the running release is no update, and no error either. -/
theorem precheck_adopted {running : OtaRelease} {remote : OtaManifest}
    (h : Update running remote) :
    otaCompatibilityPrecheck (adopted running remote) remote = .ok false := by
  obtain ⟨-, new, -, hnew, -⟩ := h.rises
  have hsame : otaVersionCompare new new = .eq := compare_lawful.compare_self
  simp only [otaCompatibilityPrecheck, valid_adopted h, h.manifest, bind, Except.bind]
  simp only [adopted, h.device, hnew, hsame, bne_self_eq_false, Bool.and_false]
  rfl

/-! ## One manifest and a run of them -/

theorem version_of_valid {running : OtaRelease} (h : otaReleaseValidate running = .ok ()) :
    ∃ version, versionOf running.version = some version := by
  unfold otaReleaseValidate at h
  split at h
  · rename_i hall
    exact Option.isSome_iff_exists.mp (Bool.and_eq_true_iff.mp hall).2
  · cases h

theorem notAbove_refl {running : OtaRelease} (h : otaReleaseValidate running = .ok ()) :
    NotAbove running running := by
  obtain ⟨version, hversion⟩ := version_of_valid h
  refine ⟨version, version, hversion, hversion, ?_⟩
  rw [compare_lawful.compare_self]
  rfl

theorem NotAbove.trans {a b c : OtaRelease} (hab : NotAbove a b) (hbc : NotAbove b c) :
    NotAbove a c := by
  obtain ⟨old, middle, hold, hmiddle, hle⟩ := hab
  obtain ⟨middle', new, hmiddle', hnew, hle'⟩ := hbc
  obtain rfl := Option.some.inj (hmiddle.symm.trans hmiddle')
  exact ⟨old, new, hold, hnew, compare_transitive.isLE_trans hle hle'⟩

theorem NotAbove.below {earlier later : OtaRelease} {remote : OtaManifest}
    (h : NotAbove earlier later) (hbelow : Below later remote) : Below earlier remote := by
  obtain ⟨old, middle, hold, hmiddle, hle⟩ := h
  obtain ⟨middle', new, hmiddle', hnew, hless⟩ := hbelow
  obtain rfl := Option.some.inj (hmiddle.symm.trans (otaVersionParse_ok_iff.mp hmiddle'))
  have := compare_transitive
  exact ⟨old, new, otaVersionParse_ok_iff.mpr hold, hnew,
    Std.TransCmp.lt_of_isLE_of_lt hle hless⟩

/-- One manifest keeps the release valid and its version from falling. -/
theorem follow_step {running : OtaRelease} (h : otaReleaseValidate running = .ok ())
    (remote : OtaManifest) :
    otaReleaseValidate (follow running remote) = .ok () ∧
      NotAbove running (follow running remote) := by
  unfold follow
  split
  · rename_i hupdate
    have hfound := update_of_precheck hupdate
    obtain ⟨old, new, hold, hnew, hless⟩ := hfound.rises
    refine ⟨valid_adopted hfound, old, new, otaVersionParse_ok_iff.mp hold,
      otaVersionParse_ok_iff.mp hnew, ?_⟩
    rw [hless]
    rfl
  · exact ⟨h, notAbove_refl h⟩

/-- A run of manifests: no release on the way is above the last one. -/
theorem follow_run {running : OtaRelease} (h : otaReleaseValidate running = .ok ())
    (manifests : List OtaManifest) :
    otaReleaseValidate (manifests.foldl follow running) = .ok () ∧
      ∀ earlier ∈ installed running manifests,
        NotAbove earlier (manifests.foldl follow running) := by
  induction manifests generalizing running with
  | nil =>
      refine ⟨h, ?_⟩
      intro earlier hmem
      rw [List.mem_singleton.mp hmem]
      exact notAbove_refl h
  | cons remote manifests ih =>
      obtain ⟨hvalid, hstep⟩ := follow_step h remote
      obtain ⟨hlast, hrun⟩ := ih hvalid
      refine ⟨hlast, ?_⟩
      intro earlier hmem
      have hparts : earlier = running ∨ earlier ∈ installed (follow running remote) manifests := by
        simpa [installed] using hmem
      rcases hparts with rfl | hmem
      · apply hstep.trans
        apply hrun
        cases manifests <;> simp [installed]
      · exact hrun earlier hmem

/-- The grammar and the order of versions, and what they make of a run of manifests. -/
theorem versions_only_rise :
    (∀ text, (∃ version, otaVersionParse text = .ok version) ↔
      ∃ a b c, Canonical a ∧ Canonical b ∧ Canonical c ∧
        text = a ++ 0x2e :: (b ++ 0x2e :: c)) ∧
    (∀ text version, otaVersionParse text = .ok version → printed version = text) ∧
    (Std.TransCmp otaVersionCompare ∧ Std.LawfulEqCmp otaVersionCompare) ∧
    ∀ running, otaReleaseValidate running = .ok () → ∀ manifests remote,
      otaCompatibilityPrecheck (manifests.foldl follow running) remote = .ok true →
        (∀ earlier ∈ installed running manifests, Below earlier remote) ∧
        follow (manifests.foldl follow running) remote =
          adopted (manifests.foldl follow running) remote ∧
        otaCompatibilityPrecheck (follow (manifests.foldl follow running) remote) remote =
          .ok false := by
  refine ⟨fun _ => accepted_iff, ?_, ⟨compare_transitive, compare_lawful⟩, ?_⟩
  · intro text version h
    exact (versionOf_iff.mp (otaVersionParse_ok_iff.mp h)).2.symm
  · intro running hvalid manifests remote hupdate
    have hfound := update_of_precheck hupdate
    have hfollow : follow (manifests.foldl follow running) remote =
        adopted (manifests.foldl follow running) remote := by
      rw [follow, hupdate]
    refine ⟨?_, hfollow, ?_⟩
    · intro earlier hmem
      exact ((follow_run hvalid manifests).2 earlier hmem).below hfound.rises
    · rw [hfollow]
      exact precheck_adopted hfound

def sampleRelease : OtaRelease :=
  ⟨1, ascii "atk-dlrk3588", ascii "EdgeGuard-ATK-DLRK3588-RK3588", ascii "1.2.3",
    ascii "fixture"⟩

def sampleManifest (version : Bytes) : OtaManifest :=
  ⟨1, ascii "atk-dlrk3588", version, ascii "next", ascii "/update.raucb",
    List.replicate 64 0x61, 3, false⟩

/-- A run over a refused downgrade to the largest patch and on to the next minor version. -/
theorem versions_only_rise_patch :
    ∀ earlier ∈ installed sampleRelease
      [sampleManifest (ascii "1.2.4294967295"), sampleManifest (ascii "1.2.4")],
      Below earlier (sampleManifest (ascii "1.3.0")) :=
  (versions_only_rise.2.2.2 sampleRelease (by decide +kernel) _ _ (by decide +kernel)).1

end EdgeGuard.Agent.VersionOrder
