import Vaulthalla.Glob.Matcher

namespace Vaulthalla
namespace Access

open Foundation

/-!
# Filesystem permissions and overrides of a vault role

A vault role carries a mask of file permissions, a mask of directory
permissions and a list of overrides.  The masks are fixed-width words and a
permission is a bit of one of them; the share permissions live in a word of
their own.

An override names its permission by a qualified name.  The two resolvers below
read the last component of that name under the base of their module.  Neither
of them knows the share permissions, so a share name resolves to nothing.
-/

inductive FilePermissions
  | preview | upload | download | overwrite | rename | delete | move | copy
deriving DecidableEq

def FilePermissions.bit : FilePermissions -> UInt16
  | preview => 1
  | upload => 2
  | download => 4
  | overwrite => 8
  | rename => 16
  | delete => 32
  | move => 64
  | copy => 128

inductive DirectoryPermissions
  | list | upload | download | touch | delete | rename | move | copy
deriving DecidableEq

def DirectoryPermissions.bit : DirectoryPermissions -> UInt16
  | list => 1
  | upload => 2
  | download => 4
  | touch => 8
  | delete => 16
  | rename => 32
  | move => 64
  | copy => 128

inductive SharePermissions
  | internal | public_ | publicWithValidation

def SharePermissions.bit : SharePermissions -> UInt8
  | internal => 1
  | public_ => 2
  | publicWithValidation => 4

structure Share where
  permissions : UInt8
deriving DecidableEq

def Share.has (share : Share) (permission : SharePermissions) : Bool :=
  (share.permissions &&& permission.bit) != 0

structure Files where
  permissions : UInt16
  share : Share
deriving DecidableEq

def Files.has (files : Files) (permission : FilePermissions) : Bool :=
  (files.permissions &&& permission.bit) != 0

structure Directories where
  permissions : UInt16
  share : Share
deriving DecidableEq

def Directories.has (directories : Directories) (permission : DirectoryPermissions) : Bool :=
  (directories.permissions &&& permission.bit) != 0

/-! ## Qualified names -/

variable (qualifiedName : Str)

/-- The text after the last dot of a qualified name. -/
def lastComponent : Str :=
  qualifiedName.rtakeWhile (fun byte => byte != dotByte)

/-- `Files::resolveFromQualifiedName`. -/
def Files.resolveFromQualifiedName : Option FilePermissions :=
  if !(str "vault.fs.files").isPrefixOf qualifiedName then none
  else
    let entry := lastComponent qualifiedName
    if entry = str "preview" then some .preview
    else if entry = str "upload" then some .upload
    else if entry = str "download" then some .download
    else if entry = str "overwrite" then some .overwrite
    else if entry = str "rename" then some .rename
    else if entry = str "delete" then some .delete
    else if entry = str "move" then some .move
    else if entry = str "copy" then some .copy
    else none

/-- `Directories::resolveFromQualifiedName`. -/
def Directories.resolveFromQualifiedName : Option DirectoryPermissions :=
  if !(str "vault.fs.directories").isPrefixOf qualifiedName then none
  else
    let entry := lastComponent qualifiedName
    if entry = str "list" then some .list
    else if entry = str "upload" then some .upload
    else if entry = str "download" then some .download
    else if entry = str "touch" then some .touch
    else if entry = str "delete" then some .delete
    else if entry = str "rename" then some .rename
    else if entry = str "move" then some .move
    else if entry = str "copy" then some .copy
    else none

example : Files.resolveFromQualifiedName (str "vault.fs.files.download") = some .download := by decide
example : Files.resolveFromQualifiedName (str "vault.fs.files.share.public") = none := by decide
example : Directories.resolveFromQualifiedName (str "vault.fs.directories.list") = some .list := by decide

/-! ## Actions and overrides -/

inductive FilesystemAction
  | preview | list | write | read | touch | overwrite | rename | delete | move | copy
  | shareInternal | sharePublic | sharePublicValidated | lookup | link
deriving DecidableEq

inductive OverrideOpt
  | allow | deny
deriving DecidableEq

/-- A path-scoped exception to the masks of a role.  The database ids of the
source take no part in a decision. -/
structure Override where
  qualifiedName : Str
  effect : OverrideOpt
  enabled : Bool
  pattern : Glob.Pattern
deriving DecidableEq

/-- `permission::vault::Filesystem`: what a role says about the entries of a vault. -/
structure Filesystem where
  files : Files
  directories : Directories
  overrides : List Override
deriving DecidableEq

end Access
end Vaulthalla
