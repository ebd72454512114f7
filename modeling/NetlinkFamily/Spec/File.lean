import NetlinkFamily.Spec.Records

/-!
A specification together with the license that its first line names.
-/

namespace NetlinkFamily.Spec

/-- The only license that generated files may be released under. -/
def acceptedLicense : String :=
  "((GPL-2.0 WITH Linux-syscall-note) OR BSD-3-Clause)"

/-- What the first line of a specification begins with. -/
def licenseTag : String :=
  "# SPDX-License-Identifier: "

structure File where
  license : String
  family : Family
  deriving DecidableEq, Inhabited

/-- Why a text is not accepted as a specification. -/
inductive FileError where
  | missingLicense
  | malformed
  | license (found : String)
  deriving DecidableEq, Inhabited

def FileError.message : FileError → String
  | missingLicense => "SPDX license tag required in the spec"
  | malformed => "failed to parse spec: malformed document"
  | license found =>
      "spec license '" ++ found ++ "' not accepted, license must be: " ++ acceptedLicense

def File.checkLicense (file : File) : Except FileError Unit :=
  if file.license = acceptedLicense then .ok () else .error (.license file.license)

end NetlinkFamily.Spec
