import PolyrepoTemplate.Models
import PolyrepoTemplate.Text.Strip

namespace PolyrepoTemplate

open Text

structure RequestValidationError where
  errors : List ErrorDetail
  deriving DecidableEq, Repr

/-- The code before anything is bound: the headers are stripped and validated. -/
def userDetails (tenantId userId : String) : Except RequestValidationError UserDetails :=
  (UserDetails.validate (strip tenantId) (strip userId)).mapError fun e => ⟨e.errors⟩

section
variable {tenantId userId : String} {details : UserDetails}

theorem userDetails_eq_ok (h : userDetails tenantId userId = .ok details) :
    details.tenantId = strip tenantId ∧ details.userId = strip userId := by
  unfold userDetails UserDetails.validate at h
  split at h
  · cases h
    exact ⟨rfl, rfl⟩
  · cases h

end

end PolyrepoTemplate
