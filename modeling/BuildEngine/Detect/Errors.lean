import BuildEngine.Base.PyStr

/-! # The exceptions of project detection

The three exception classes of `detect/`, each with its messages, and the exceptions of Python's own that reading
a project can raise. They are subclasses of `ValueError`, except `RecursionError`; none is a subclass of
another but `UnicodeDecodeError` and the integer limit of `ValueError` itself. -/

namespace BuildEngine.Detect

open BuildEngine.Base

/-- `PackageJsonError` -/
inductive PackageJsonError where
  | notJson
  | notObject
  | fieldNotObject (field : PyStr)
  | fieldNotStrings (field : PyStr)
  | fieldNotString (field : PyStr)
  deriving DecidableEq

/-- The message, for the path of the file. -/
def PackageJsonError.text (path : PyStr) : PackageJsonError → PyStr
  | .notJson => path ++ py " is not valid JSON"
  | .notObject => path ++ py " must contain a JSON object"
  | .fieldNotObject field => path ++ py " field " ++ field ++ py " must be an object"
  | .fieldNotStrings field => path ++ py " field " ++ field ++ py " must map strings to strings"
  | .fieldNotString field => path ++ py " field " ++ field ++ py " must be a string"

/-- `PackageManagerDetectionError` -/
inductive PackageManagerDetectionError where
  | unsupportedLockfile (filename : PyStr)
  | unnamed
  | unsupported (name : PyStr)
  | noManager
  deriving DecidableEq

/-- The message; `repr` is Python's. -/
def PackageManagerDetectionError.text (repr : PyStr → PyStr) : PackageManagerDetectionError → PyStr
  | .unsupportedLockfile filename =>
    py "Unsupported package manager lockfile " ++ repr filename ++ py "; use npm or pnpm"
  | .unnamed => py "packageManager must name npm or pnpm"
  | .unsupported name => py "Unsupported packageManager " ++ repr name ++ py "; supported managers: npm, pnpm"
  | .noManager => py "The selected profile does not use a package manager"

/-- `DetectionError` -/
inductive DetectionError where
  | managerNotCertified
  | deferredOverride (framework : PyStr)
  | unknownOverride (framework : PyStr)
  | deferredFramework
  | noFramework
  | nodeUnsupported (supported : PyStr)
  | nodeMissing
  deriving DecidableEq

/-- The message; `repr` is Python's. -/
def DetectionError.text (repr : PyStr → PyStr) : DetectionError → PyStr
  | .managerNotCertified => py "Only npm and pnpm are certified for Node-based profiles"
  | .deferredOverride framework =>
    py "Framework " ++ repr framework ++ py " is deferred and not certified for this release"
  | .unknownOverride framework => py "Unknown framework override: " ++ framework
  | .deferredFramework => py "Detected a deferred framework; this release supports only the curated eight"
  | .noFramework => py "No certified static-site framework was detected"
  | .nodeUnsupported supported => py "Use one of the supported Node major versions: " ++ supported ++ py "."
  | .nodeMissing => py "Node selection is required for Node-based framework profiles"

/-- The exceptions of Python's own: a text that is not UTF-8, a value nested too deeply, and an integer of more
digits than `int` converts. -/
inductive Builtin where
  | unicodeDecode
  | recursion
  | intDigits
  deriving DecidableEq

/-- What `plan_build` may raise. -/
inductive Exc where
  | packageJson (e : PackageJsonError)
  | packageManager (e : PackageManagerDetectionError)
  | detection (e : DetectionError)
  | builtin (e : Builtin)
  deriving DecidableEq

end BuildEngine.Detect
