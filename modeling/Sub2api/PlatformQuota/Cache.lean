import Sub2api.Billing.Command

/-!
# The platform-quota cache

The Redis hash of one user on one platform and the two operations that write it: the increment
script, which only adds, and `SetUserPlatformQuotaCache`, which overwrites every field.
-/

namespace Sub2api.PlatformQuota

open Billing (Time second hour)

/-- `time.Time.Unix`. -/
def unix (t : Time) : ℤ := t / second

/-- `time.Unix`. -/
def ofUnix (n : ℤ) : Time := n * second

/-- The fields of one window; its start is in unix seconds, and an empty field is `none`. -/
structure QuotaWindow where
  usage : ℚ := 0
  limit : Option ℚ := none
  start : Option ℤ := none

structure UserPlatformQuotaCacheEntry where
  daily : QuotaWindow
  weekly : QuotaWindow
  monthly : QuotaWindow
  version : ℤ := 0
  schemaVersion : ℤ := 0

def userPlatformQuotaCacheSchemaV1 : ℤ := 1

/-- Whether the increment script and the eligibility check work with the entry. -/
def UserPlatformQuotaCacheEntry.current (e : UserPlatformQuotaCacheEntry) : Bool :=
  e.schemaVersion == userPlatformQuotaCacheSchemaV1

def QuotaWindow.add (cost : ℚ) (w : QuotaWindow) : QuotaWindow := { w with usage := w.usage + cost }

/-- The hash after a counted increment. -/
def UserPlatformQuotaCacheEntry.add (cost : ℚ) (e : UserPlatformQuotaCacheEntry) :
    UserPlatformQuotaCacheEntry :=
  { e with
    daily := e.daily.add cost
    weekly := e.weekly.add cost
    monthly := e.monthly.add cost
    version := e.version + 1 }

/-- `updateUserPlatformQuotaUsageScript`: whether the increment counted, and the hash. A missing
key and an entry of another schema are left alone. -/
def updateUserPlatformQuotaUsage (cost : ℚ) :
    Option UserPlatformQuotaCacheEntry → Bool × Option UserPlatformQuotaCacheEntry
  | none => (false, none)
  | some e => if e.current then (true, some (e.add cost)) else (false, some e)

end Sub2api.PlatformQuota
