import PolyPlug.Signing.Digest

/-!
# `PolyPlug.Signing.Sig`: `bundle.sig`, signing and verification

`bundle.sig` is a magic text, a format version, the verifying key and the signature
over the canonical digest. `signBundle` writes it, `verify` reads the key and the
signature back from it and checks the signature against the digest of the directory
as it is now, and the pinned verifier also wants the key to be one it trusts.

Ed25519 is a parameter. What the results need of it is stated there as hypotheses:
a key reads back from its bytes, and a signature made with a signing key verifies
under its verifying key.
-/

set_option autoImplicit false

namespace PolyPlug.Signing

/-- The operations of the signature scheme. An error is the text of its `SignatureError`. -/
structure Ed25519 where
  SigningKey : Type
  VerifyingKey : Type
  verifyingKey : SigningKey → VerifyingKey
  asBytes : VerifyingKey → Bytes32
  fromBytes : Bytes32 → Except String VerifyingKey
  sign : SigningKey → Bytes → Bytes64
  verifyStrict : VerifyingKey → Bytes → Bytes64 → Except String Unit

/-! ### The file format -/

/-- `SIG_MAGIC`. -/
def sigMagic : Bytes := asBytes "PPSIG" ++ [0]

/-- `SIG_VERSION`. -/
def sigVersion : UInt8 := 0x01

/-- `SIG_FILE_LEN`. -/
def sigFileLen : Nat := 6 + 1 + 32 + 64

/-- `BundleSig`. -/
structure BundleSig (ed : Ed25519) where
  verifyingKey : ed.VerifyingKey
  signature : Bytes64

/-- `BundleSig::serialize`. -/
def BundleSig.serialize {ed : Ed25519} (sig : BundleSig ed) : Bytes :=
  sigMagic ++ [sigVersion] ++ (ed.asBytes sig.verifyingKey).1 ++ sig.signature.1

/-- `data[start..start + len].try_into()`, the error being the length of `data`. -/
def sliceOf (bundle : String) (data : Bytes) (start len : Nat) :
    Except SigError { bytes : Bytes // bytes.length = len } :=
  if h : ((data.drop start).take len).length = len then .ok ⟨(data.drop start).take len, h⟩
  else .error (.malformedLength bundle sigFileLen data.length)

/-- `BundleSig::parse`. -/
def BundleSig.parse (ed : Ed25519) (data : Bytes) (bundle : String) :
    Except SigError (BundleSig ed) := do
  if data.length ≠ sigFileLen then
    .error (.malformedLength bundle sigFileLen data.length)
  -- The length is right from here on, so no slice fails.
  else if data.take 6 ≠ sigMagic then
    .error (.badMagic bundle)
  else if data.getD 6 0 ≠ sigVersion then
    .error (.badVersion bundle (data.getD 6 0))
  else do
    let vkBytes ← sliceOf bundle data 7 32
    let signature ← sliceOf bundle data 39 64
    match ed.fromBytes vkBytes with
    | .error e => .error (.signatureMismatch bundle ("invalid verifying key: " ++ e))
    | .ok verifyingKey => .ok { verifyingKey, signature }

/-! ### Writing `bundle.sig` -/

/-- `bundle.sig` as an entry of the root. -/
def sigName : FileName where
  bytes := sigFileName
  nonempty := by decide +kernel
  noSeparator := by decide +kernel
  noNul := by decide +kernel

/-- `fs::write` to an entry: it replaces the contents of a regular file, or of the file a
symbolic link points to, and fails on anything else. -/
def Leaf.write (bytes : Bytes) : Leaf → Option Leaf
  | .file _          => some (.file (some bytes))
  | .symlink .failed => none
  | .symlink _       => some (.symlink (.bytes bytes))
  | .irregular       => none
  | .untyped         => none

/-- `fs::write` to the entry `name` of a directory, a new file if there is none. -/
def Listing.write (name : FileName) (bytes : Bytes) : Listing → Option Listing
  | .done             => some (.leaf name (.file (some bytes)) .done)
  | .failed           => none
  | .leaf n kind rest =>
      if n = name then (kind.write bytes).map fun kind => .leaf n kind rest
      else (rest.write name bytes).map (.leaf n kind)
  | .dir n entries rest =>
      if n = name then none else (rest.write name bytes).map (.dir n entries)

/-- A write adds no name but the one written. -/
theorem Listing.mem_names_write {name : FileName} {bytes : Bytes} {n : FileName} :
    ∀ {l l' : Listing}, l.write name bytes = some l' → n ∈ l'.names → n ∈ l.names ∨ n = name := by
  intro l
  induction l with
  | done =>
      intro l' h hn
      obtain rfl : Listing.leaf name (.file (some bytes)) .done = l' := by simpa [write] using h
      simpa [names] using hn
  | failed => intro l' h; simp [write] at h
  | leaf m kind rest ih =>
      intro l' h hn
      rw [write] at h
      split at h
      · obtain ⟨kind', _, rfl⟩ := Option.map_eq_some_iff.1 h
        exact .inl hn
      · obtain ⟨rest', hrest, rfl⟩ := Option.map_eq_some_iff.1 h
        simp only [names, List.mem_cons] at hn ⊢
        rcases hn with rfl | hn
        · exact .inl (.inl rfl)
        · exact (ih hrest hn).imp_left .inr
  | dir m entries rest _ ih =>
      intro l' h hn
      rw [write] at h
      split at h
      · cases h
      · obtain ⟨rest', hrest, rfl⟩ := Option.map_eq_some_iff.1 h
        simp only [names, List.mem_cons] at hn ⊢
        rcases hn with rfl | hn
        · exact .inl (.inl rfl)
        · exact (ih hrest hn).imp_left .inr

/-- A write keeps the names distinct. -/
theorem Listing.distinct_write {name : FileName} {bytes : Bytes} :
    ∀ {l l' : Listing}, l.Distinct → l.write name bytes = some l' → l'.Distinct := by
  intro l
  induction l with
  | done =>
      intro l' _ h
      obtain rfl : Listing.leaf name (.file (some bytes)) .done = l' := by simpa [write] using h
      simp [Distinct, names]
  | failed => intro l' _ h; simp [write] at h
  | leaf m kind rest ih =>
      intro l' hd h
      rw [write] at h
      split at h
      · obtain ⟨kind', _, rfl⟩ := Option.map_eq_some_iff.1 h
        exact hd
      · next hne =>
        obtain ⟨rest', hrest, rfl⟩ := Option.map_eq_some_iff.1 h
        exact ⟨fun hm => (mem_names_write hrest hm).elim hd.1 hne, ih hd.2 hrest⟩
  | dir m entries rest _ ih =>
      intro l' hd h
      rw [write] at h
      split at h
      · cases h
      · next hne =>
        obtain ⟨rest', hrest, rfl⟩ := Option.map_eq_some_iff.1 h
        exact ⟨fun hm => (mem_names_write hrest hm).elim hd.1 hne, hd.2.1, ih hd.2.2 hrest⟩

/-- The directory after `fs::write` to the entry `name`. -/
def Directory.write (dir : Directory) (name : FileName) (bytes : Bytes) : Option Directory :=
  match h : dir.listing.write name bytes with
  | none         => none
  | some listing => some ⟨listing, Listing.distinct_write dir.distinct h⟩

/-- `sign_bundle`: the bundle directory it leaves. -/
def signBundle (sha256 : Bytes → Bytes32) (ed : Ed25519) (bundleDir : BundleDir)
    (signingKey : ed.SigningKey) : Except SigError BundleDir := do
  let digest ← canonicalDigest sha256 bundleDir
  let signature := ed.sign signingKey digest.1
  -- The key goes into the file, next to the signature.
  let verifyingKey := ed.verifyingKey signingKey
  let bundleSig : BundleSig ed := { verifyingKey, signature }
  match bundleDir.root.bind fun root => root.write sigName bundleSig.serialize with
  | none      => .error (.io { bundleDir := bundleDir.display, below := [sigName] })
  | some root => .ok { bundleDir with root := some root }

/-! ### Verification -/

/-- `VerifiedBundle`. -/
structure VerifiedBundle (ed : Ed25519) where
  verifyingKey : ed.VerifyingKey
  bundleDir : BundleDir

/-- What opening `bundle.sig` below the bundle path gives. -/
def BundleDir.openSig (bundleDir : BundleDir) : Opened :=
  match bundleDir.root with
  | none      => .missing
  | some root => root.listing.openAt sigName

/-- `Ed25519Verifier::verify`. -/
def verify (sha256 : Bytes → Bytes32) (ed : Ed25519) (bundleDir : BundleDir) :
    Except SigError (VerifiedBundle ed) :=
  let bundleName := bundleDir.display
  match bundleDir.openSig with
  | .missing => .error (.missingSignature bundleName)
  | .failed => .error (.io { bundleDir := bundleDir.display, below := [sigName] })
  | .bytes sigData => do
      let bundleSig ← BundleSig.parse ed sigData bundleName
      let digest ← canonicalDigest sha256 bundleDir
      match ed.verifyStrict bundleSig.verifyingKey digest.1 bundleSig.signature with
      | .error e => .error (.signatureMismatch bundleName e)
      | .ok () => .ok { verifyingKey := bundleSig.verifyingKey, bundleDir }

/-- `PinnedKeyVerifier::verify`. -/
def verifyPinned (sha256 : Bytes → Bytes32) (ed : Ed25519) (trusted : List ed.VerifyingKey)
    (bundleDir : BundleDir) : Except SigError (VerifiedBundle ed) := do
  let verified ← verify sha256 ed bundleDir
  if trusted.any (fun key => ed.asBytes key = ed.asBytes verified.verifyingKey) then .ok verified
  else .error (.untrustedKey bundleDir.display)

end PolyPlug.Signing
