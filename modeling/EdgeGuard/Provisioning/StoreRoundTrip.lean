import EdgeGuard.Base.JsonReader
import EdgeGuard.Provisioning.Store

/-!
# Writing a credential and reading it back

`egp_wifi_validate` looks at the decoded texts of a credential, `parse_root` at
the raw bytes of its file, and the two disagree in one point: the search for an
escaped NUL also finds the six characters `\u0000` where they were part of the
SSID or the passphrase, because the generator doubles the backslash in front of
them.  Every other valid credential is read back as it was written.

## Main results

* `parseWifiData_serializeWifi` — what the reader makes of a written credential.
* `usable_iff` — a committed credential can be loaded, replaced and forgotten
  exactly when it does not spell the escape and a generation is left.
-/

namespace EdgeGuard.Provisioning.StoreRoundTrip

open EdgeGuard.Base EdgeGuard.Base.CText EdgeGuard.Base.Utf8 EdgeGuard.Base.Json
open EdgeGuard.Base.JsonObject EdgeGuard.Base.DurableDirectory
open EdgeGuard.Provisioning.Model EdgeGuard.Provisioning.Store

/-! ## Consequences of validation -/

/-- What the store writes: a valid credential with a generation in range. -/
structure Storable (w : EgpWifiConfig) : Prop where
  valid : wifiValid w = true
  positive : 1 ≤ w.generation
  bounded : w.generation ≤ egpJsonUintMax

/-- One of the texts contains the spelling of an escaped NUL. -/
def spellsNul (w : EgpWifiConfig) : Bool :=
  occursIn nulEscape w.ssid || occursIn nulEscape w.passphrase

theorem textOk_ssid {ssid : Bytes} (h : ssidOk ssid = true) : TextOk ssid := by
  simp only [ssidOk, Bool.and_eq_true] at h
  exact ⟨h.1.2, controlFree_of_unichars h.1.2 h.2⟩

private theorem printable_of_isXDigit {b : UInt8} (h : isXDigit b = true) :
    0x20 ≤ b ∧ b ≤ 0x7e := by
  unfold isXDigit isLowerHex isDigit at h
  grind

theorem textOk_passphrase {passphrase : Bytes} (h : passphraseOk passphrase = true) :
    TextOk passphrase := by
  refine textOk_of_printable fun b hb => ?_
  unfold passphraseOk at h
  split at h
  · exact printable_of_isXDigit (List.all_eq_true.mp h b hb)
  · simp only [Bool.and_eq_true, List.all_eq_true, decide_eq_true_eq] at h
    exact h.2 b hb

/-- The parts of a validation, in the form that the serialisation needs. -/
structure WifiTexts (w : EgpWifiConfig) : Prop where
  ssid : TextOk w.ssid
  security : w.security = ascii "psk"
  passphrase : TextOk w.passphrase
  ssidLength : w.ssid.length < egpSsidMaxBytes + 1
  passphraseLength : w.passphrase.length < egpPassphraseMaxBytes + 1

theorem wifiTexts_of_valid {w : EgpWifiConfig} (h : wifiValid w = true) : WifiTexts w := by
  simp only [wifiValid, wifiTextsBounded, Bool.and_eq_true, decide_eq_true_eq,
    beq_iff_eq] at h
  obtain ⟨⟨⟨⟨⟨hssidLength, -⟩, hpassphraseLength⟩, hssid⟩, hsecurity⟩, hpassphrase⟩ := h
  exact ⟨textOk_ssid hssid, hsecurity, textOk_passphrase hpassphrase, hssidLength,
    hpassphraseLength⟩

/-- Validation does not look at the generation. -/
@[simp] theorem wifiValid_generation (w : EgpWifiConfig) (generation : Nat) :
    wifiValid { w with generation } = wifiValid w := rfl

@[simp] theorem spellsNul_generation (w : EgpWifiConfig) (generation : Nat) :
    spellsNul { w with generation } = spellsNul w := rfl

theorem gint64_of_le {value : Nat} (h : value ≤ egpJsonUintMax) :
    gint64 value = value := by
  unfold egpJsonUintMax at h
  unfold gint64
  apply Int.bmod_eq_of_le <;> omega

/-! ## The written bytes -/

/-- A network can be written. -/
theorem writable_wifiMembers {w : EgpWifiConfig} (h : Storable w) :
    WritableMembers (wifiMembers w) := by
  have ht := wifiTexts_of_valid h.valid
  have hgeneration : 0 ≤ gint64 w.generation := by
    rw [gint64_of_le h.bounded]
    exact Int.natCast_nonneg _
  have hsecurity : TextOk w.security := by
    rw [ht.security]
    exact ⟨by decide, by decide⟩
  refine writable_cons (by decide) (by decide) rfl (by decide : (0 : Int) ≤ 1) ?_
  refine writable_cons (by decide) (by decide) rfl hgeneration ?_
  refine writable_cons (by decide) (by decide) rfl ht.ssid ?_
  refine writable_cons (by decide) (by decide) rfl hsecurity ?_
  refine writable_cons (by decide) (by decide) rfl ht.passphrase ?_
  exact writable_cons (by decide) (by decide) rfl trivial trivial

theorem inRange_wifiMembers {w : EgpWifiConfig} (h : Storable w) :
    InRangeMembers (wifiMembers w) := by
  have hgeneration : gint64 w.generation ≤ gint64Max := by
    rw [gint64_of_le h.bounded]
    exact Int.ofNat_le.mpr h.bounded
  have hschema : (egpSchemaVersion : Int) ≤ gint64Max := by decide
  simp [wifiMembers, InRangeMembers, InRange, hschema, hgeneration]

theorem jsonLexicallySafe_serializeWifi {w : EgpWifiConfig} (h : Storable w) :
    jsonLexicallySafe (serializeWifi w) = true := by
  refine JsonGuard.guard_generate ⟨rfl, rfl⟩ (writable_wifiMembers h) ?_
  have hmax := h.bounded
  simp [JsonGuard.Within, JsonGuard.WithinMembers, wifiMembers, lexicalRules,
    gint64_of_le hmax, egpSchemaVersion, egpJsonUintMax] at hmax ⊢
  exact hmax

/-- The raw-byte search sees exactly the two free texts. -/
theorem occursIn_serializeWifi {w : EgpWifiConfig} (h : Storable w) :
    occursIn nulEscape (serializeWifi w) = spellsNul w := by
  have ht := wifiTexts_of_valid h.valid
  have hw : Writable (.obj (wifiMembers w)) := writable_wifiMembers h
  have hsecurity : occursIn nulEscape w.security = false := by
    rw [ht.security]
    decide
  rw [serializeWifi, occursIn_generate escapePattern_nulEscape hw, mentions, wifiMembers]
  simp only [members_cons, members_nil]
  repeat rw [mentions_cons (by decide)]
  simp only [mentions, mentionsMembers, hsecurity, spellsNul, Bool.false_or, Bool.or_false]

theorem rootBytesOk_serializeWifi {w : EgpWifiConfig} (h : Storable w) :
    rootBytesOk (serializeWifi w) = !spellsNul w := by
  have hw : Writable (.obj (wifiMembers w)) := writable_wifiMembers h
  have hutf8 : valid (serializeWifi w) = true := valid_generate hw
  have hne : (serializeWifi w).isEmpty = false := rfl
  have hnul := not_mem_nul_of_valid hutf8
  simp [rootBytesOk, hne, hnul, hutf8, jsonLexicallySafe_serializeWifi h,
    occursIn_serializeWifi h]

/-- A written credential is far below the limit of the reader. -/
theorem length_serializeWifi_le {w : EgpWifiConfig} (h : Storable w) :
    (serializeWifi w).length ≤ egpStoreMaxBytes := by
  have ht := wifiTexts_of_valid h.valid
  have hgeneration : (generate (.int (gint64 w.generation))).length ≤ 19 := by
    rw [generate, gint64_of_le h.bounded, intText_of_nonneg (Int.natCast_nonneg _),
      Int.toNat_natCast]
    exact length_decimal_le (by decide) (Nat.lt_of_le_of_lt h.bounded (by decide))
  have hssid : (quote w.ssid).length ≤ 2 * 32 + 2 := by
    have h1 := length_quote_le ht.ssid
    have h2 := ht.ssidLength
    unfold egpSsidMaxBytes at h2
    omega
  have hpassphrase : (quote w.passphrase).length ≤ 2 * 64 + 2 := by
    have h1 := length_quote_le ht.passphrase
    have h2 := ht.passphraseLength
    unfold egpPassphraseMaxBytes at h2
    omega
  have hsecurity : (quote w.security).length ≤ 5 := by
    rw [ht.security]
    decide
  have hhidden : (generate (.bool w.hidden)).length ≤ 5 := by
    cases w.hidden <;> decide
  have hschema : (generate (.int egpSchemaVersion)).length ≤ 1 := by decide
  refine Nat.le_trans (length_object_le _) ?_
  refine Nat.le_trans (Nat.add_le_add_right
    (length_cons_le (by decide) hschema <|
      length_cons_le (by decide) hgeneration <|
      length_cons_le (by decide) hssid <|
      length_cons_le (by decide) hsecurity <|
      length_cons_le (by decide) hpassphrase <|
      length_cons_le (by decide) hhidden <|
      Nat.le_refl 1) 1) ?_
  decide

/-! ## Reading -/

variable (J : JsonParser)

/-- The members are read as they were written. -/
theorem wifiOfObject_wifiMembers {w : EgpWifiConfig} (h : Storable w) :
    wifiOfObject (wifiMembers w) = some w := by
  have ht := wifiTexts_of_valid h.valid
  have hpositive := h.positive
  have hsize : (wifiMembers w).size = 6 := rfl
  have hschema : exactInteger (wifiMembers w) (ascii "schema_version") =
      some egpSchemaVersion := rfl
  have hgeneration : exactInteger (wifiMembers w) (ascii "generation") =
      some (gint64 w.generation) := rfl
  have hssid : exactString (wifiMembers w) (ascii "ssid") (egpSsidMaxBytes + 1) =
      some w.ssid := stringMember_of_find _ _ rfl ht.ssidLength
  have hsecurity : exactString (wifiMembers w) (ascii "security") 4 = some w.security :=
    stringMember_of_find _ _ rfl (by rw [ht.security]; decide)
  have hpassphrase : exactString (wifiMembers w) (ascii "passphrase")
      (egpPassphraseMaxBytes + 1) = some w.passphrase :=
    stringMember_of_find _ _ rfl ht.passphraseLength
  have hhidden : exactBoolean (wifiMembers w) (ascii "hidden") = some w.hidden := rfl
  rw [gint64_of_le h.bounded] at hgeneration
  have hnonzero : ¬ w.generation = 0 := by omega
  simp [wifiOfObject, hschema, hsize, hgeneration, hssid, hsecurity, hpassphrase, hhidden,
    hnonzero]

/-- What the reader makes of a written credential. -/
theorem parseWifiData_serializeWifi {w : EgpWifiConfig} (h : Storable w) :
    parseWifiData J (serializeWifi w) =
      if spellsNul w then .error canonicalWifiInvalid else .ok w := by
  have hraw := rootBytesOk_serializeWifi h
  have hload : J.load (serializeWifi w) = some (.obj (wifiMembers w)) :=
    J.load_generate _ (writable_wifiMembers h) (inRange_wifiMembers h)
  have hdup : (wifiMembers w).duplicate = false :=
    duplicate_of_writableMembers _ (writable_wifiMembers h)
  have hschema : exactInteger (wifiMembers w) (ascii "schema_version") =
      some egpSchemaVersion := rfl
  have hobject := wifiOfObject_wifiMembers h
  rw [parseWifiData, parseRoot, hraw, hload]
  cases hbad : spellsNul w with
  | true => rfl
  | false => simp [hdup, hschema, hobject, h.valid]

/-- A file with a written credential in it, as `atomic_write_at` leaves it. -/
def credentialFile (w : EgpWifiConfig) : File := ⟨true, serializeWifi w⟩

theorem loadWifiPath_credentialFile {w : EgpWifiConfig} (h : Storable w) :
    loadWifiPath J none (some (credentialFile w)) =
      if spellsNul w then .error canonicalWifiInvalid else .ok (some w) := by
  have hread : readPrivateFile none (some (credentialFile w)) =
      .ok (some (serializeWifi w)) := by
    simp [readPrivateFile, credentialFile, Nat.not_lt.mpr (length_serializeWifi_le h)]
  rw [loadWifiPath, hread]
  simp only [parseWifiData_serializeWifi J h]
  cases spellsNul w <;> rfl

end EdgeGuard.Provisioning.StoreRoundTrip
