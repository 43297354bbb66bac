import Mathlib.Algebra.Order.Ring.Int
import Mathlib.Logic.Function.Basic

namespace PolyrepoTemplate

/-- An aware `datetime`: microseconds since the epoch, and its own UTC offset in
seconds. Two of them compare as instants. -/
structure Datetime where
  instant : ℤ
  utcoffset : ℤ
  deriving DecidableEq, Repr

structure ErrorDetail where
  loc : String
  type : String
  msg : String
  deriving DecidableEq, Repr

structure ValidationError where
  title : String
  errors : List ErrorDetail
  deriving DecidableEq, Repr

def minLengthOne (loc value : String) : List ErrorDetail :=
  if value = "" then [⟨loc, "string_too_short", "String should have at least 1 character"⟩] else []

theorem minLengthOne_eq_nil {loc value : String} : minLengthOne loc value = [] ↔ value ≠ "" := by
  simp [minLengthOne]

structure UserDetails where
  tenantId : String
  userId : String
  tenantId_minLength : tenantId ≠ ""
  userId_minLength : userId ≠ ""
  deriving DecidableEq

def UserDetails.validate (tenantId userId : String) : Except ValidationError UserDetails :=
  if h : tenantId ≠ "" ∧ userId ≠ "" then .ok ⟨tenantId, userId, h.1, h.2⟩
  else .error ⟨"UserDetails", minLengthOne "tenant_id" tenantId ++ minLengthOne "user_id" userId⟩

structure FeatureFlag where
  name : String
  enabled : Bool
  updatedAt : Datetime
  updatedByUserId : String
  name_minLength : name ≠ ""
  updatedByUserId_minLength : updatedByUserId ≠ ""
  deriving DecidableEq

def FeatureFlag.validate (name : String) (enabled : Bool) (updatedAt : Datetime)
    (updatedByUserId : String) : Except ValidationError FeatureFlag :=
  if h : name ≠ "" ∧ updatedByUserId ≠ "" then
    .ok ⟨name, enabled, updatedAt, updatedByUserId, h.1, h.2⟩
  else
    .error ⟨"FeatureFlag",
      minLengthOne "name" name ++ minLengthOne "updated_by_user_id" updatedByUserId⟩

theorem FeatureFlag.validate_ok {name updatedByUserId : String} {enabled : Bool}
    {updatedAt : Datetime} (hname : name ≠ "") (huser : updatedByUserId ≠ "") :
    FeatureFlag.validate name enabled updatedAt updatedByUserId =
      .ok ⟨name, enabled, updatedAt, updatedByUserId, hname, huser⟩ :=
  dif_pos ⟨hname, huser⟩

/-- `model_dump_json` and `model_validate_json` of `FeatureFlag`. -/
structure FlagJson where
  dumpJson : FeatureFlag → String
  validateJson : String → Except ValidationError FeatureFlag
  validateJson_dumpJson : ∀ flag, validateJson (dumpJson flag) = .ok flag

/-- `_FlagName`: the path parameter the router accepts, at least one character. -/
structure FlagName where
  val : String
  minLength : val ≠ ""
  deriving DecidableEq

structure FeatureFlagConfig where
  cacheTtlSeconds : ℤ := 300
  cacheTtlSeconds_ge : 1 ≤ cacheTtlSeconds := by decide

end PolyrepoTemplate
