import EdgeGuard.Base.Utf8

/-!
# Data model of the provisioning daemon

`model.h` of the daemon: its error codes and the record that every fallible
function fills, and the two configurations it stores.

A C array that holds a string is the list of the bytes in front of its NUL, so
the capacity of the array is a bound on the length of the list, and
`bounded_string` is that bound.  `EgpError` is an out-parameter in the source
that is also set on success; a function that leaves it alone is said to, and
`EgpError.clear` is what `egp_error_clear` makes of it.
-/

namespace EdgeGuard.Provisioning.Model

open EdgeGuard.Base.CText EdgeGuard.Base.Utf8

def egpSchemaVersion : Int := 1
def egpStoreMaxBytes : Nat := 64 * 1024
def egpSsidMaxBytes : Nat := 32
def egpPassphraseMaxBytes : Nat := 64
def egpEndpointMaxBytes : Nat := 64
def egpMessageCap : Nat := 256
def egpDbusPathCap : Nat := 512
def egpProtocolMaxJson : Nat := 1024
/-- `G_MAXINT64`. -/
def egpJsonUintMax : Nat := 2 ^ 63 - 1

/-! ## Errors -/

inductive EgpErrorCode
  | none
  | bleUnauthorized
  | bleNotPaired
  | bleWindowClosed
  | bleProtocolUnsupported
  | blePayloadInvalid
  | blePayloadTooLarge
  | bleFragmentConflict
  | bleTransactionTimeout
  | bleReplayRejected
  | provisioningBusy
  | provisioningRace
  | wifiConfigInvalid
  | wifiAuthFailed
  | wifiApNotFound
  | wifiConnectTimeout
  | persistenceReadFailed
  | persistenceWriteFailed
  | persistenceSchemaUnsupported
  | endpointInvalid
  | endpointConfigInvalid
  | connmanUnavailable
  | connmanApplyFailed
  | bluezUnavailable
  | gattRegistrationFailed
  | advertisementFailed
  | agentBusy
  | agentUnavailable
  | otaControlRejected
  | factoryResetBlocked
  | internalError
  | bleInvalidOffset
  deriving DecidableEq, Repr

inductive EgpPersistentChange
  | none
  | committed
  | rolledBack
  | uncertain
  deriving DecidableEq, Repr

structure EgpError where
  code : EgpErrorCode
  retryable : Bool
  persistentChange : EgpPersistentChange
  message : Bytes
  deriving DecidableEq, Repr

/-- `egp_error_clear`. -/
def EgpError.clear : EgpError := ⟨.none, false, .none, []⟩

/-- `egp_error_set`: `g_vsnprintf` cuts the text to the array. -/
def egpErrorSet (code : EgpErrorCode) (retryable : Bool) (change : EgpPersistentChange)
    (message : Bytes) : EgpError :=
  ⟨code, retryable, change, message.take (egpMessageCap - 1)⟩

@[simp] theorem egpErrorSet_code (code : EgpErrorCode) (retryable : Bool)
    (change : EgpPersistentChange) (message : Bytes) :
    (egpErrorSet code retryable change message).code = code := rfl

@[simp] theorem egpErrorSet_persistentChange (code : EgpErrorCode) (retryable : Bool)
    (change : EgpPersistentChange) (message : Bytes) :
    (egpErrorSet code retryable change message).persistentChange = change := rfl

/-! ## States -/

inductive EgpProvisioningState
  | unprovisioned
  | stored
  | applying
  | associating
  | connected
  | failedConfig
  | failedAuth
  | failedNotFound
  | failedTimeout
  | failedDependency
  deriving DecidableEq, Repr

/-! ## Configurations -/

structure EgpWifiConfig where
  generation : Nat
  ssid : Bytes
  security : Bytes
  passphrase : Bytes
  hidden : Bool
  deriving DecidableEq, Repr

structure EgpRuntimeConfig where
  generation : Nat
  otaServerBaseUrl : Bytes
  deriving DecidableEq, Repr

/-- The arrays of `EgpWifiConfig`: what `bounded_string` asks of them. -/
def wifiTextsBounded (wifi : EgpWifiConfig) : Bool :=
  wifi.ssid.length < egpSsidMaxBytes + 1 && wifi.security.length < 4 &&
    wifi.passphrase.length < egpPassphraseMaxBytes + 1

def ssidOk (ssid : Bytes) : Bool :=
  1 ≤ ssid.length && ssid.length ≤ egpSsidMaxBytes && valid ssid &&
    (unichars ssid).all fun ch => !unicharIsCntrl ch

/-- A raw key of 64 hexadecimal digits, or 8 to 63 printable characters. -/
def passphraseOk (passphrase : Bytes) : Bool :=
  if passphrase.length == 64 then passphrase.all isXDigit
  else
    8 ≤ passphrase.length && passphrase.length ≤ 63 &&
      passphrase.all fun b => 0x20 ≤ b && b ≤ 0x7e

/-- The condition of `egp_wifi_validate`. -/
def wifiValid (wifi : EgpWifiConfig) : Bool :=
  wifiTextsBounded wifi && ssidOk wifi.ssid && wifi.security == ascii "psk" &&
    passphraseOk wifi.passphrase

def wifiInvalidError : EgpError :=
  egpErrorSet .wifiConfigInvalid true .none (ascii "Wi-Fi configuration is invalid")

/-- `egp_wifi_validate`. -/
def egpWifiValidate (wifi : EgpWifiConfig) : Except EgpError Unit :=
  if wifiValid wifi then .ok () else .error wifiInvalidError

end EdgeGuard.Provisioning.Model
