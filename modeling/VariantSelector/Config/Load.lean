import VariantSelector.Config.Reader
import VariantSelector.FileTree

/-!
Loading a configuration from a file.
-/

namespace VariantSelector.Config

/-- Why a file does not give a configuration. -/
inductive LoadFault
  | unreadable (fault : ReadFault)
  | rejected (fault : Fault)
  deriving Repr

/-- The fault in words. -/
def LoadFault.reason : LoadFault → Text
  | .unreadable fault => fault.reason
  | .rejected fault => fault.reason

/-- What was being done to the file. -/
def LoadFault.attempt : LoadFault → Text
  | .unreadable _ => "failed to read config ".toList
  | .rejected _ => "failed to parse config ".toList

/-- The fault in words, for the file at `path`. -/
def LoadFault.message (fault : LoadFault) (path : Text) : Text :=
  fault.attempt ++ (path ++ (": ".toList ++ fault.reason))

/-- Loads the configuration that `read` finds at `path`. -/
def load (read : Text → Except ReadFault Text) (path : Text) : Except LoadFault Config := do
  let text ← (read path).mapError .unreadable
  (parse text).mapError .rejected

end VariantSelector.Config
