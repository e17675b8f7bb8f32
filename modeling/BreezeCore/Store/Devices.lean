import BreezeCore.Lib.Text

/-!
# The device records

`devices.json` lists the devices that were paired, each with the credential its
version of the scheme needs: the hash of a bearer token, or a public key.
-/

namespace BreezeStore

open Text

/-- A paired device. -/
structure DeviceRecord where
  tokenId : Str
  label : Str
  authVersion : UInt8
  tokenHash : Option Str
  publicKey : Option Str
  createdAt : ℚ
  /-- Absent means non-expiring. -/
  expiresAt : Option ℚ
  lastUsed : Option ℚ
  deriving DecidableEq, Repr

/-- `devices.json`. -/
structure DevicesDoc where
  devices : List DeviceRecord := []
  deriving DecidableEq, Repr

/-- The record has not expired: `expires_at` is absent or not yet past. -/
def DeviceRecord.Unexpired (r : DeviceRecord) (now : ℚ) : Prop :=
  ∀ e, r.expiresAt = some e → now ≤ e

instance (r : DeviceRecord) (now : ℚ) : Decidable (r.Unexpired now) :=
  match h : r.expiresAt with
  | none => isTrue (by intro e he; rw [h] at he; cases he)
  | some e =>
      if hle : now ≤ e then isTrue (by intro e' he; rw [h] at he; cases he; exact hle)
      else isFalse fun hall => hle (hall e h)

end BreezeStore
