import Mathlib.Algebra.Group.Nat.Defs
import PolyPlug.Lib.Encoding

/-!
# `PolyPlug.Signing.Digest`: the canonical digest of a bundle directory

The digest walks a directory, collects the paths of its regular files relative to
the root, sorts them, and hashes a buffer made of a tag, the number of files, and
each path with the hash of its file. The file `bundle.sig` of the root is left out.

A `Listing` is what `read_dir` enumerates of a directory, in its order, with the
listings of the directories below. `Listing.fileAt` opens a file by the components
of its path: it is what the directory means, and does not depend on the order.
SHA-256 is a parameter.
-/

set_option autoImplicit false

namespace PolyPlug.Signing

/-- A byte string. -/
abbrev Bytes := List UInt8

/-- The 32 bytes of a hash or of a public key. -/
abbrev Bytes32 := { bytes : Bytes // bytes.length = 32 }

/-- The 64 bytes of a signature. -/
abbrev Bytes64 := { bytes : Bytes // bytes.length = 64 }

/-- `str::as_bytes`. -/
def asBytes (s : String) : Bytes := s.toUTF8.toList

/-- `str::from_utf8` accepts the bytes. -/
def isUtf8 (bytes : Bytes) : Bool := (ByteArray.mk bytes.toArray).validateUTF8

/-- `'/'`. -/
def separator : UInt8 := 47

/-! ### Directories -/

/-- The name of a directory entry, as the file system allows it. -/
structure FileName where
  bytes : Bytes
  nonempty : bytes ≠ []
  noSeparator : separator ∉ bytes
  noNul : 0 ∉ bytes
deriving DecidableEq

@[ext] theorem FileName.ext {a b : FileName} (h : a.bytes = b.bytes) : a = b := by
  cases a
  cases b
  simp_all

/-- What opening and reading a path gives. -/
inductive Opened where
  | missing
  | failed
  | bytes (bytes : Bytes)
deriving DecidableEq

/-- An entry that is not a directory. A file whose `fs::read` fails has no contents, and
an entry whose type cannot be read is `untyped`. -/
inductive Leaf where
  | file (contents : Option Bytes)
  | symlink (target : Opened)
  | irregular
  | untyped
deriving DecidableEq

/-- The contents of a regular file. -/
def Leaf.contents : Leaf → Option Bytes
  | .file contents => contents
  | _              => none

/-- `Path::exists` and `fs::read` on the entry. A symbolic link is followed. -/
def Leaf.opened : Leaf → Opened
  | .file (some bytes) => .bytes bytes
  | .file none         => .failed
  | .symlink target    => target
  | .irregular         => .failed
  | .untyped           => .failed

/-- The entries `read_dir` yields, in its order. `failed` is the place where the
enumeration itself fails. -/
inductive Listing where
  | done
  | failed
  | leaf (name : FileName) (kind : Leaf) (rest : Listing)
  | dir (name : FileName) (entries : Listing) (rest : Listing)
deriving DecidableEq

namespace Listing

/-- The names of the entries. -/
def names : Listing → List FileName
  | done            => []
  | failed          => []
  | leaf name _ rest => name :: rest.names
  | dir name _ rest => name :: rest.names

/-- No directory has two entries of one name. -/
def Distinct : Listing → Prop
  | done                  => True
  | failed                => True
  | leaf name _ rest      => name ∉ rest.names ∧ rest.Distinct
  | dir name entries rest => name ∉ rest.names ∧ entries.Distinct ∧ rest.Distinct

/-- Decide it entry by entry. -/
def decidableDistinct : (l : Listing) → Decidable l.Distinct
  | done                  => .isTrue trivial
  | failed                => .isTrue trivial
  | leaf name _ rest      => @instDecidableAnd (name ∉ rest.names) _ _ rest.decidableDistinct
  | dir name entries rest =>
      @instDecidableAnd (name ∉ rest.names) _ _
        (@instDecidableAnd _ _ entries.decidableDistinct rest.decidableDistinct)

instance (l : Listing) : Decidable l.Distinct := l.decidableDistinct

/-- The contents of the regular file at the components of a path. -/
def fileAt : Listing → List Bytes → Option Bytes
  | done, _                  => none
  | failed, _                => none
  | leaf name kind rest, path =>
      if path = [name.bytes] then kind.contents else rest.fileAt path
  | dir name entries rest, path =>
      match path with
      | first :: second :: more =>
          if first = name.bytes then entries.fileAt (second :: more)
          else rest.fileAt (first :: second :: more)
      | short => rest.fileAt short

/-- `Path::exists` and `fs::read` on the entry `name`. -/
def openAt (name : FileName) : Listing → Opened
  | done             => .missing
  | failed           => .failed
  | leaf n kind rest => if n = name then kind.opened else rest.openAt name
  | dir n _ rest     => if n = name then .failed else rest.openAt name

end Listing

/-- A directory of the file system. -/
structure Directory where
  listing : Listing
  distinct : listing.Distinct
deriving DecidableEq

/-- The contents of the regular file at a `'/'`-joined path. -/
def Directory.contents (dir : Directory) (path : Bytes) : Option Bytes :=
  dir.listing.fileAt (path.splitOn separator)

/-- The bundle path: the text `display` gives, and the directory it resolves to if it is one. -/
structure BundleDir where
  display : String
  root : Option Directory
deriving DecidableEq

/-! ### Errors -/

/-- A path in a message: the bundle directory joined with the components below it. -/
structure AbsPath where
  bundleDir : String
  below : List FileName
deriving DecidableEq

/-- `SigError`. The `source` of an I/O error is left out. -/
inductive SigError where
  | missingSignature (bundle : String)
  | badMagic (bundle : String)
  | badVersion (bundle : String) (version : UInt8)
  | malformedLength (bundle : String) (expected : Nat) (found : Nat)
  | signatureMismatch (bundle : String) (reason : String)
  | untrustedKey (bundle : String)
  | io (path : AbsPath)
  | notADirectory (path : AbsPath)
  | nonUtf8Path (bundle : String) (path : AbsPath)
  | symlinkNotAllowed (bundle : String) (path : AbsPath)
  | irregularFile (bundle : String) (path : AbsPath)
  | emptyBundle (bundle : String)
deriving DecidableEq

/-! ### The walk -/

/-- `SIG_FILE_NAME`. -/
def sigFileName : Bytes := asBytes "bundle.sig"

/-- The entry of `collect_files` for a file, with what `fs::read` will give for it. -/
structure CollectedFile where
  relPath : Bytes
  absPath : AbsPath
  contents : Option Bytes
deriving DecidableEq

/-- The components of a path as UTF-8 text, joined with `'/'`. -/
def relStr (bundleName : String) (path : AbsPath) : Except SigError Bytes :=
  if path.below.all (fun name => isUtf8 name.bytes) then
    .ok ([separator].intercalate (path.below.map (·.bytes)))
  else .error (.nonUtf8Path bundleName path)

/-- `collect_files`: the loop over the entries of the directory `dir`, with what it has
collected so far. -/
def collectFiles (bundleName : String) (dir : AbsPath) :
    Listing → List CollectedFile → Except SigError (List CollectedFile)
  | .done, result => .ok result
  | .failed, _ => .error (.io dir)
  | .dir name entries rest, result => do
      -- The walk goes into a directory before it goes on.
      let sub ← collectFiles bundleName { dir with below := dir.below ++ [name] } entries []
      collectFiles bundleName dir rest (result ++ sub)
  | .leaf name kind rest, result => do
      let absPath : AbsPath := { dir with below := dir.below ++ [name] }
      match kind with
      | .untyped   => .error (.io absPath)
      | .symlink _ => .error (.symlinkNotAllowed bundleName absPath)
      | .irregular => .error (.irregularFile bundleName absPath)
      | .file contents =>
          let rel ← relStr bundleName absPath
          -- The signature does not cover itself. A `bundle.sig` further below is covered.
          if rel = sigFileName then collectFiles bundleName dir rest result
          else collectFiles bundleName dir rest (result ++ [{ relPath := rel, absPath, contents }])

/-! ### The buffer -/

/-- `DOMAIN_SEP_TAG`. -/
def domainSepTag : Bytes := asBytes "polyplug-bundle-sig" ++ [0]

/-- `DIGEST_ALGO_VERSION`. -/
def digestAlgoVersion : UInt8 := 0x01

/-- `u64::to_le_bytes` of a length, which is below `2 ^ 64` on every target. -/
def toLeBytes (n : Nat) : Bytes := (List.range 8).map fun i => UInt8.ofNat (n / 256 ^ i)

/-- The buffer before the first file. -/
def header (fileCount : Nat) : Bytes := domainSepTag ++ [digestAlgoVersion] ++ toLeBytes fileCount

/-- What one file adds to the buffer. -/
def record (sha256 : Bytes → Bytes32) (relPath contents : Bytes) : Bytes :=
  relPath ++ [0] ++ (sha256 contents).1

/-- The loop over the sorted files: read each, and append its record. -/
def appendFiles (sha256 : Bytes → Bytes32) :
    List CollectedFile → Bytes → Except SigError Bytes
  | [], canonical => .ok canonical
  | entry :: entries, canonical =>
      match entry.contents with
      | none => .error (.io entry.absPath)
      | some fileBytes =>
          appendFiles sha256 entries (canonical ++ record sha256 entry.relPath fileBytes)

/-- `a.0.as_bytes().cmp(b.0.as_bytes())` is not `Greater`. -/
def pathLe (a b : CollectedFile) : Prop := a.relPath ≤ b.relPath

instance : DecidableRel pathLe := fun a b => inferInstanceAs (Decidable (a.relPath ≤ b.relPath))

/-- The canonical buffer of the files a walk collected. -/
def canonicalBuffer (sha256 : Bytes → Bytes32) (entries : List CollectedFile) :
    Except SigError Bytes :=
  appendFiles sha256 (entries.insertionSort pathLe) (header entries.length)

/-- `canonical_digest`. -/
def canonicalDigest (sha256 : Bytes → Bytes32) (bundleDir : BundleDir) :
    Except SigError Bytes32 :=
  match bundleDir.root with
  | none => .error (.notADirectory { bundleDir := bundleDir.display, below := [] })
  | some root => do
      let bundleName := bundleDir.display
      let entries ← collectFiles bundleName { bundleDir := bundleDir.display, below := [] }
        root.listing []
      if entries.isEmpty then .error (.emptyBundle bundleName)
      else do
        let canonical ← canonicalBuffer sha256 entries
        .ok (sha256 canonical)

end PolyPlug.Signing
