import Overlay.Error
import Overlay.Text.Line

/-!
# Configuration

A layer is generated for two schema names: the redirected schema, which holds the shadow tables,
and the base alias, which holds the views. Both have defaults. A configuration is sound if neither
name is blank and the two differ, up to the case of ASCII letters.
-/

namespace Overlay

/-- The two schema names for which layers are generated. -/
structure Config where
  /-- The schema of the shadow tables. -/
  redirectedSchema : String := "redirected"
  /-- The schema of the views. -/
  baseAlias : String := "base"
  deriving DecidableEq, Repr, Inhabited

/-- Whether a name has no character but white space. -/
def isBlankName (name : String) : Bool :=
  name.toList.all Text.isBlank

namespace Config

/-- The value of a setting. -/
def get (c : Config) : Setting → String
  | .redirectedSchema => c.redirectedSchema
  | .baseAlias => c.baseAlias

/-- The configuration with a setting changed. -/
def set (c : Config) (setting : Setting) (value : String) : Config :=
  match setting with
  | .redirectedSchema => { c with redirectedSchema := value }
  | .baseAlias => { c with baseAlias := value }

/-- The configuration itself if it is sound. -/
def check (c : Config) : Except Error Config :=
  if isBlankName c.redirectedSchema then .error (.config (.blank .redirectedSchema))
  else if isBlankName c.baseAlias then .error (.config (.blank .baseAlias))
  else if Text.sameName c.redirectedSchema c.baseAlias then .error (.config .sameNames)
  else .ok c

theorem check_eq_ok_iff {c d : Config} :
    c.check = .ok d ↔
      isBlankName c.redirectedSchema = false ∧ isBlankName c.baseAlias = false ∧
        Text.sameName c.redirectedSchema c.baseAlias = false ∧ c = d := by
  unfold check
  split
  · simp_all
  · split
    · simp_all
    · split <;> simp_all

end Config
end Overlay
