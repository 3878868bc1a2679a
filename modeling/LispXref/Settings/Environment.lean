import LispXref.Text.Quoted

/-! Environment variables, and why settings are refused. -/
namespace LispXref

inductive SettingsError where
  | noExtensions
  | badContext
  | notInteger (text : String)
  | tooManyDigits (count : Nat)
  | nullCharacter
  | illegalName
  deriving DecidableEq, Repr

/-- Variables with their values; of two entries for one variable the first counts. -/
structure Environment where
  bindings : List (String × String)
  deriving DecidableEq, Repr

namespace Environment

def empty : Environment := ⟨[]⟩

def get? (env : Environment) (name : String) : Option String := env.bindings.lookup name

def unset (env : Environment) (name : String) : Environment :=
  ⟨env.bindings.filter (·.1 ≠ name)⟩

/-- Sets a variable. Neither name nor value may hold a null character, and a name holds
no equals sign. -/
def set (env : Environment) (name value : String) : Except SettingsError Environment :=
  if '\x00' ∈ name.toList ∨ '\x00' ∈ value.toList then .error .nullCharacter
  else if '=' ∈ name.toList then .error .illegalName
  else .ok ⟨(name, value) :: (env.unset name).bindings⟩

end Environment
end LispXref
