import PolyPlug.Signing.Sig
import PolyPlug.Proofs.Signing.Digest

/-!
# `PolyPlug.Proofs.Signing.Verify`: what the verifier accepts

`bundle.sig` reads back as it was written (`parse_serialize`), writing it does not
change the digest (`canonicalDigest_write`), so a directory that was just signed is
accepted. From then on the verifier accepts what `bundle.sig` holds a valid
signature for (`verify_ok_iff`). The verifying key is read from `bundle.sig` itself:
a directory that was changed and signed again, by whomever, is accepted under the key
of the second signer, and only the acceptances under the first key say that the files
are the ones that were signed.

A signature scheme is a function here, so that nobody can forge is a statement about
the signatures at hand: a signature that is valid under a key is one the key's owner
made (`Unforged`).
-/

set_option autoImplicit false

namespace PolyPlug.Signing

/-- A verifying key reads back from its bytes. -/
def Ed25519.ReadsBack (ed : Ed25519) : Prop :=
  ∀ key, ed.fromBytes (ed.asBytes key) = .ok key

/-- A signature made with a signing key verifies under its verifying key. -/
def Ed25519.Correct (ed : Ed25519) : Prop :=
  ∀ key message, ed.verifyStrict (ed.verifyingKey key) message (ed.sign key message) = .ok ()

/-! ### The file format -/

theorem length_sigMagic : sigMagic.length = 6 := by decide +kernel

theorem sliceOf_eq {bundle : String} {data : Bytes} {start len : Nat}
    (slice : { bytes : Bytes // bytes.length = len })
    (h : (data.drop start).take len = slice.1) : sliceOf bundle data start len = .ok slice := by
  rw [sliceOf, dif_pos (by rw [h]; exact slice.2)]
  exact congrArg _ (Subtype.ext h)

/-- **A `bundle.sig` reads back as it was written.** -/
theorem parse_serialize {ed : Ed25519} (hed : ed.ReadsBack) (sig : BundleSig ed) (bundle : String) :
    BundleSig.parse ed sig.serialize bundle = .ok sig := by
  obtain ⟨vk, ⟨signature, hsig⟩⟩ := sig
  have hvk := (ed.asBytes vk).2
  have hmagic := length_sigMagic
  have hlen : (BundleSig.serialize ⟨vk, ⟨signature, hsig⟩⟩ : Bytes).length = sigFileLen := by
    simp [BundleSig.serialize, sigFileLen, hmagic, hvk, hsig]
  have hslice : ∀ {pre mid post : Bytes} {start len : Nat}, pre.length = start → mid.length = len →
      ((pre ++ mid ++ post).drop start).take len = mid := by
    rintro pre mid post _ _ rfl rfl
    simp
  have hserial : (BundleSig.serialize ⟨vk, ⟨signature, hsig⟩⟩ : Bytes) =
      sigMagic ++ [sigVersion] ++ (ed.asBytes vk).1 ++ signature := rfl
  have h6 : (BundleSig.serialize ⟨vk, ⟨signature, hsig⟩⟩ : Bytes).getD 6 0 = sigVersion := by
    simp [hserial, List.getD_eq_getElem?_getD, hmagic]
  have hkey : sliceOf bundle (BundleSig.serialize ⟨vk, ⟨signature, hsig⟩⟩) 7 32 =
      .ok (ed.asBytes vk) := by
    refine sliceOf_eq _ ?_
    rw [hserial]
    exact hslice (by simp [hmagic]) hvk
  have hbytes : sliceOf bundle (BundleSig.serialize ⟨vk, ⟨signature, hsig⟩⟩) 39 64 =
      .ok ⟨signature, hsig⟩ := by
    refine sliceOf_eq ⟨signature, hsig⟩ ?_
    have := @hslice (sigMagic ++ [sigVersion] ++ (ed.asBytes vk).1) signature [] 39 64
      (by simp [hmagic, hvk]) hsig
    rwa [List.append_nil] at this
  rw [BundleSig.parse, if_neg (by simp [hlen]), if_neg, if_neg (not_not.2 h6), hkey, hbytes]
  · dsimp only [bind, Except.bind]
    rw [hed vk]
  · rw [hserial, List.append_assoc, List.append_assoc, List.take_append_of_le_length (by omega),
      List.take_of_length_le (by omega)]
    simp

/-! ### Writing `bundle.sig` -/

/-- What was written is what is read. -/
theorem Listing.openAt_write {name : FileName} {bytes : Bytes} :
    ∀ {l l' : Listing}, l.write name bytes = some l' → l'.openAt name = .bytes bytes := by
  intro l
  induction l with
  | done =>
      intro l' h
      rw [← Option.some.inj h]
      simp [openAt, Leaf.opened]
  | failed => intro l' h; cases h
  | leaf n kind rest ih =>
      intro l' h
      rw [write] at h
      split at h
      · next heq =>
        obtain ⟨kind', hkind, rfl⟩ := Option.map_eq_some_iff.1 h
        rw [openAt, if_pos heq]
        cases kind with
        | file contents => rw [← Option.some.inj hkind]; rfl
        | symlink target =>
            cases target with
            | missing => rw [← Option.some.inj hkind]; rfl
            | failed => cases hkind
            | bytes _ => rw [← Option.some.inj hkind]; rfl
        | irregular => cases hkind
        | untyped => cases hkind
      · next hne =>
        obtain ⟨rest', hrest, rfl⟩ := Option.map_eq_some_iff.1 h
        rw [openAt, if_neg hne, ih hrest]
  | dir n entries rest _ ih =>
      intro l' h
      rw [write] at h
      split at h
      · cases h
      · next hne =>
        obtain ⟨rest', hrest, rfl⟩ := Option.map_eq_some_iff.1 h
        rw [openAt, if_neg hne, ih hrest]

theorem relStr_sigName (bundleName display : String) :
    relStr bundleName { bundleDir := display, below := [sigName] } = .ok sigFileName := by
  rw [relStr, if_pos]
  · simp [sigName]
  · have hutf8 : isUtf8 sigFileName = true := by decide +kernel
    simpa [sigName] using hutf8

/-- The walk passes over a file `bundle.sig` of the root. -/
theorem collectFiles_sigName {bundleName display : String} {contents : Option Bytes}
    {rest : Listing} {result : List CollectedFile} :
    collectFiles bundleName { bundleDir := display, below := [] }
        (.leaf sigName (.file contents) rest) result =
      collectFiles bundleName { bundleDir := display, below := [] } rest result := by
  simp only [collectFiles, List.nil_append]
  rw [relStr_sigName]
  exact if_pos rfl

/-- **Writing `bundle.sig` does not change what the walk collects.** -/
theorem collectFiles_write {bundleName display : String} {bytes : Bytes} :
    ∀ {l l' : Listing} {result out : List CollectedFile}, l.write sigName bytes = some l' →
      collectFiles bundleName { bundleDir := display, below := [] } l result = .ok out →
        collectFiles bundleName { bundleDir := display, below := [] } l' result = .ok out := by
  intro l
  induction l with
  | done =>
      intro l' result out h hwalk
      rw [← Option.some.inj h, collectFiles_sigName, hwalk]
  | failed => intro l' result out h; cases h
  | leaf n kind rest ih =>
      intro l' result out h hwalk
      rw [Listing.write] at h
      split at h
      · next heq =>
        subst heq
        obtain ⟨kind', hkind, rfl⟩ := Option.map_eq_some_iff.1 h
        cases kind with
        | file contents =>
            rw [← Option.some.inj hkind, collectFiles_sigName, ← hwalk, collectFiles_sigName]
        | symlink target => cases hwalk
        | irregular => cases hwalk
        | untyped => cases hwalk
      · obtain ⟨rest', hrest, rfl⟩ := Option.map_eq_some_iff.1 h
        cases kind with
        | symlink target => cases hwalk
        | irregular => cases hwalk
        | untyped => cases hwalk
        | file contents =>
            simp only [collectFiles] at hwalk ⊢
            cases hrel : relStr bundleName ⟨display, [] ++ [n]⟩ with
            | error e => rw [hrel] at hwalk; cases hwalk
            | ok rel =>
                rw [hrel] at hwalk
                change (if rel = sigFileName then _ else _) = _ at hwalk
                show (if rel = sigFileName then _ else _) = _
                split at hwalk
                · next hsig => rw [if_pos hsig, ih hrest hwalk]
                · next hsig => rw [if_neg hsig, ih hrest hwalk]
  | dir n entries rest _ ih =>
      intro l' result out h hwalk
      rw [Listing.write] at h
      split at h
      · cases h
      · obtain ⟨rest', hrest, rfl⟩ := Option.map_eq_some_iff.1 h
        simp only [collectFiles] at hwalk ⊢
        cases hsub : collectFiles bundleName ⟨display, [] ++ [n]⟩ entries [] with
        | error e => rw [hsub] at hwalk; cases hwalk
        | ok sub =>
            rw [hsub] at hwalk
            exact ih hrest hwalk

theorem Directory.listing_write {root root' : Directory} {name : FileName} {bytes : Bytes}
    (h : root.write name bytes = some root') :
    root.listing.write name bytes = some root'.listing := by
  rw [write] at h
  split at h
  · cases h
  · next hw => rw [hw, ← Option.some.inj h]

/-- **Writing `bundle.sig` does not change the digest.** -/
theorem canonicalDigest_write {sha256 : Bytes → Bytes32} {display : String} {root root' : Directory}
    {bytes : Bytes} {digest : Bytes32} (h : root.write sigName bytes = some root')
    (hdigest : canonicalDigest sha256 { display, root := some root } = .ok digest) :
    canonicalDigest sha256 { display, root := some root' } = .ok digest := by
  simp only [canonicalDigest] at hdigest ⊢
  cases hwalk : collectFiles display { bundleDir := display, below := [] } root.listing [] with
  | error e => rw [hwalk] at hdigest; cases hdigest
  | ok entries =>
      rw [hwalk] at hdigest
      rw [collectFiles_write (Directory.listing_write h) hwalk]
      exact hdigest

/-! ### Signatures -/

/-- `bundle.sig` holds the key and a signature of the digest that is valid under it. -/
def HoldsSignature (ed : Ed25519) (bundleDir : BundleDir) (key : ed.VerifyingKey)
    (digest : Bytes32) : Prop :=
  ∃ data sig, bundleDir.openSig = .bytes data ∧
    BundleSig.parse ed data bundleDir.display = .ok sig ∧ sig.verifyingKey = key ∧
      ed.verifyStrict key digest.1 sig.signature = .ok ()

/-- No signature in `bundle.sig` was forged: if it is valid for a digest, the owner of the key
has signed that digest. `signed` are the digests that were signed, with the key each verifies
under. -/
def Unforged (ed : Ed25519) (signed : Set (ed.VerifyingKey × Bytes32)) (bundleDir : BundleDir) :
    Prop :=
  ∀ key digest, HoldsSignature ed bundleDir key digest → (key, digest) ∈ signed

/-- **The verifier accepts what `bundle.sig` holds a valid signature for.** -/
theorem verify_ok_iff {sha256 : Bytes → Bytes32} {ed : Ed25519} {bundleDir : BundleDir}
    {verified : VerifiedBundle ed} :
    verify sha256 ed bundleDir = .ok verified ↔
      verified.bundleDir = bundleDir ∧ ∃ digest, canonicalDigest sha256 bundleDir = .ok digest ∧
        HoldsSignature ed bundleDir verified.verifyingKey digest := by
  constructor
  · intro h
    rw [verify] at h
    split at h
    · cases h
    · cases h
    · next data hopen =>
      cases hparse : BundleSig.parse ed data bundleDir.display with
      | error e => rw [hparse] at h; cases h
      | ok sig =>
          cases hdigest : canonicalDigest sha256 bundleDir with
          | error e => rw [hparse, hdigest] at h; cases h
          | ok digest =>
              rw [hparse, hdigest] at h
              dsimp only [bind, Except.bind] at h
              split at h
              · cases h
              · next hvalid =>
                obtain rfl := Except.ok.inj h
                exact ⟨rfl, digest, rfl, data, sig, hopen, hparse, rfl, hvalid⟩
  · obtain ⟨key, verifiedDir⟩ := verified
    rintro ⟨rfl, digest, hdigest, data, sig, hopen, hparse, rfl, hvalid⟩
    rw [verify, hopen]
    dsimp only
    rw [hparse, hdigest]
    dsimp only [bind, Except.bind]
    rw [hvalid]

/-- What signing leaves: the digest is the one that was signed, and `bundle.sig` holds the
signature. -/
theorem signBundle_ok {sha256 : Bytes → Bytes32} {ed : Ed25519} {dir signedDir : BundleDir}
    {key : ed.SigningKey} (hread : ed.ReadsBack) (hcorrect : ed.Correct)
    (h : signBundle sha256 ed dir key = .ok signedDir) :
    ∃ digest, canonicalDigest sha256 dir = .ok digest ∧
      canonicalDigest sha256 signedDir = .ok digest ∧
        HoldsSignature ed signedDir (ed.verifyingKey key) digest := by
  rw [signBundle] at h
  cases hdigest : canonicalDigest sha256 dir with
  | error e => rw [hdigest] at h; cases h
  | ok digest =>
      rw [hdigest] at h
      dsimp only [bind, Except.bind] at h
      split at h
      · cases h
      · next root' hroot' =>
        obtain ⟨root, hroot, hwrite⟩ := Option.bind_eq_some_iff.1 hroot'
        obtain rfl := Except.ok.inj h
        obtain ⟨display, _⟩ := dir
        obtain rfl : _ = some root := hroot
        refine ⟨digest, rfl, canonicalDigest_write hwrite hdigest, _,
          { verifyingKey := ed.verifyingKey key, signature := ed.sign key digest.1 }, ?_,
          parse_serialize hread _ _, rfl, hcorrect key digest.1⟩
        exact Listing.openAt_write (Directory.listing_write hwrite)

theorem SameFiles.canonicalDigest {sha256 : Bytes → Bytes32} {a b : BundleDir} {digest : Bytes32}
    (h : SameFiles a b) (hplain : b.Plain) (ha : canonicalDigest sha256 a = .ok digest) :
    canonicalDigest sha256 b = .ok digest := by
  obtain ⟨root, hroot, hne, rfl⟩ := canonicalDigest_ok ha
  obtain ⟨root', hroot', hplain⟩ := hplain
  have hmem := (sameFiles_iff_mem_covered hroot hroot').1 h
  have hne' : covered root' ≠ [] := by
    obtain ⟨f, hf⟩ := List.exists_mem_of_ne_nil _ hne
    exact List.ne_nil_of_mem ((hmem f).1 hf)
  rw [canonicalDigest_of_plain hroot' hplain hne', bufferOf_eq_of_mem_iff hmem]

/-- **Under the key that signed, the verifier accepts exactly the files that were signed.** -/
theorem verify_later_iff {sha256 : Bytes → Bytes32} {ed : Ed25519} {dir later : BundleDir}
    {key : ed.VerifyingKey} {digest : Bytes32} {signed : Set (ed.VerifyingKey × Bytes32)}
    (hdigest : canonicalDigest sha256 dir = .ok digest) (hplain : later.Plain)
    (hcollision : NoCollision sha256 dir later) (hunforged : Unforged ed signed later)
    (honly : ∀ digest', (key, digest') ∈ signed → digest' = digest) :
    verify sha256 ed later = .ok { verifyingKey := key, bundleDir := later } ↔
      SameFiles dir later ∧ HoldsSignature ed later key digest := by
  rw [verify_ok_iff]
  constructor
  · rintro ⟨_, digest', hlater, hholds⟩
    have heq : digest' = digest := honly _ (hunforged _ _ hholds)
    refine ⟨(canonicalDigest_eq_iff hcollision hdigest hlater).1 heq.symm, ?_⟩
    rwa [← heq]
  · rintro ⟨hsame, hholds⟩
    exact ⟨rfl, digest, hsame.canonicalDigest hplain hdigest, hholds⟩

/-- **Pinned to the key that signed, the verifier accepts exactly the files that were signed.** -/
theorem verifyPinned_later_iff {sha256 : Bytes → Bytes32} {ed : Ed25519} {dir later : BundleDir}
    {key : ed.VerifyingKey} {digest : Bytes32} {signed : Set (ed.VerifyingKey × Bytes32)}
    (hread : ed.ReadsBack) (hdigest : canonicalDigest sha256 dir = .ok digest)
    (hplain : later.Plain) (hcollision : NoCollision sha256 dir later)
    (hunforged : Unforged ed signed later)
    (honly : ∀ digest', (key, digest') ∈ signed → digest' = digest) :
    (∃ verified, verifyPinned sha256 ed [key] later = .ok verified) ↔
      SameFiles dir later ∧ HoldsSignature ed later key digest := by
  rw [← verify_later_iff hdigest hplain hcollision hunforged honly]
  have hinj : ∀ a b, ed.asBytes a = ed.asBytes b → a = b := fun a b h =>
    Except.ok.inj ((hread a).symm.trans ((congrArg ed.fromBytes h).trans (hread b)))
  constructor
  · rintro ⟨verified, h⟩
    rw [verifyPinned] at h
    cases hverify : verify sha256 ed later with
    | error e => rw [hverify] at h; cases h
    | ok v =>
        rw [hverify] at h
        change (if _ then _ else _) = _ at h
        split at h
        · next htrusted =>
          have hkey : key = v.verifyingKey := hinj _ _ (by simpa using htrusted)
          have hdir : v.bundleDir = later := (verify_ok_iff.1 hverify).1
          rw [hkey, ← hdir]
        · cases h
  · intro h
    refine ⟨{ verifyingKey := key, bundleDir := later }, ?_⟩
    rw [verifyPinned, h]
    show (if _ then _ else _) = _
    rw [if_pos (by simp)]

/-! ### The digest and the signature of a bundle -/

/-- **The digest identifies the files of a bundle, and a signature of it does.** Digests of
two directories are equal exactly when the directories hold the same files, `bundle.sig` of
the root aside. A directory that was just signed is accepted. Afterwards an acceptance under
the key that signed means that the files are the ones that were signed and that `bundle.sig`
holds a valid signature over them, and the other way round, as long as the key's owner has
signed nothing else. -/
theorem digest_identifies_bundle (sha256 : Bytes → Bytes32) :
    (∀ (a b : BundleDir) (digest digest' : Bytes32), NoCollision sha256 a b →
      canonicalDigest sha256 a = .ok digest → canonicalDigest sha256 b = .ok digest' →
        (digest = digest' ↔ SameFiles a b)) ∧
    ∀ (ed : Ed25519), ed.ReadsBack → ed.Correct →
      ∀ (dir signedDir : BundleDir) (key : ed.SigningKey),
        signBundle sha256 ed dir key = .ok signedDir →
          verify sha256 ed signedDir =
            .ok { verifyingKey := ed.verifyingKey key, bundleDir := signedDir } ∧
          ∃ digest, canonicalDigest sha256 dir = .ok digest ∧
            ∀ (later : BundleDir) (signed : Set (ed.VerifyingKey × Bytes32)), later.Plain →
              NoCollision sha256 dir later → Unforged ed signed later →
                (∀ digest', (ed.verifyingKey key, digest') ∈ signed → digest' = digest) →
                  (verify sha256 ed later =
                      .ok { verifyingKey := ed.verifyingKey key, bundleDir := later } ↔
                    SameFiles dir later ∧
                      HoldsSignature ed later (ed.verifyingKey key) digest) := by
  refine ⟨fun a b digest digest' hcollision ha hb => canonicalDigest_eq_iff hcollision ha hb, ?_⟩
  intro ed hread hcorrect dir signedDir key h
  obtain ⟨digest, hdir, hsigned, hholds⟩ := signBundle_ok hread hcorrect h
  refine ⟨verify_ok_iff.2 ⟨rfl, digest, hsigned, hholds⟩, digest, hdir, ?_⟩
  intro later signed hplain hcollision hunforged honly
  exact verify_later_iff hdir hplain hcollision hunforged honly

/-! ### A bundle signed again -/

/-- A scheme whose signature is the key and the first 32 bytes of the message. -/
def keyedSignatures : Ed25519 where
  SigningKey := Bytes32
  VerifyingKey := Bytes32
  verifyingKey := id
  asBytes := id
  fromBytes := .ok
  sign key message := ⟨key.1 ++ (message ++ List.replicate 32 0).take 32, by simp [key.2]⟩
  verifyStrict key message signature :=
    if signature.1 = key.1 ++ (message ++ List.replicate 32 0).take 32 then .ok ()
    else .error "signature error"

/-- A hash that keeps the last 32 bytes. -/
def lastBytes (bytes : Bytes) : Bytes32 :=
  ⟨(bytes.reverse ++ List.replicate 32 0).take 32, by simp⟩

/-- A key of one repeated byte. -/
def repeatedKey (byte : UInt8) : Bytes32 := ⟨List.replicate 32 byte, by simp⟩

/-- A file name of one letter. -/
def letterName : FileName where
  bytes := [97]
  nonempty := by decide
  noSeparator := by decide
  noNul := by decide

/-- A bundle of one file with one byte. -/
def oneFile (byte : UInt8) : BundleDir where
  display := "bundle"
  root := some ⟨.leaf letterName (.file (some [byte])) .done, by
    simp [Listing.Distinct, Listing.names]⟩

/-- The bundle of one file, signed with a key. -/
def signedFile (byte : UInt8) (key : Bytes32) : BundleDir :=
  match signBundle lastBytes keyedSignatures (oneFile byte) key with
  | .ok signedDir => signedDir
  | .error _      => oneFile byte

/-- The digest of the bundle of one file. -/
def digestOf (byte : UInt8) : Bytes32 :=
  match canonicalDigest lastBytes (oneFile byte) with
  | .ok digest => digest
  | .error _   => repeatedKey 0

theorem readsBack_keyedSignatures : keyedSignatures.ReadsBack := fun _ => rfl

theorem correct_keyedSignatures : keyedSignatures.Correct := fun _ _ => if_pos rfl

/-- Only the owner of a key makes signatures that are valid under it. -/
theorem keyedSignatures_made {key : Bytes32} {message : Bytes} {signature : Bytes64}
    (h : keyedSignatures.verifyStrict key message signature = .ok ()) :
    signature = keyedSignatures.sign key message := by
  simp only [keyedSignatures] at h ⊢
  split at h
  · next heq => exact Subtype.ext heq
  · cases h

/-- Signatures of two digests with one key are different. -/
theorem keyedSignatures_sign_inj {key : Bytes32} {a b : Bytes32}
    (h : keyedSignatures.sign key a.1 = keyedSignatures.sign key b.1) : a = b := by
  have htake : ∀ digest : Bytes32, (digest.1 ++ List.replicate 32 0).take 32 = digest.1 :=
    fun digest => List.take_left' digest.2
  have hbytes := congrArg Subtype.val h
  simp only [keyedSignatures, htake] at hbytes
  exact Subtype.ext (List.append_cancel_left hbytes)

/-- The byte strings the digest hashes, as a list. -/
def BundleDir.hashedList (sha256 : Bytes → Bytes32) (bundleDir : BundleDir) : List Bytes :=
  match bundleDir.root with
  | none      => []
  | some root => bufferOf sha256 (covered root) :: (covered root).map (·.2)

theorem noCollision_of_list {sha256 : Bytes → Bytes32} {a b : BundleDir}
    (h : ∀ x ∈ a.hashedList sha256 ++ b.hashedList sha256,
      ∀ y ∈ a.hashedList sha256 ++ b.hashedList sha256, sha256 x = sha256 y → x = y) :
    NoCollision sha256 a b := by
  have hmem : ∀ {dir : BundleDir} {bytes : Bytes}, bytes ∈ dir.hashed sha256 →
      bytes ∈ dir.hashedList sha256 := by
    rintro dir bytes ⟨root, hroot, ⟨path, hpath⟩ | rfl⟩
    · simp only [BundleDir.hashedList, hroot, List.mem_cons, List.mem_map]
      exact .inr ⟨_, hpath, rfl⟩
    · simp [BundleDir.hashedList, hroot]
  intro x hx y hy heq
  refine h x ?_ y ?_ heq
  · exact List.mem_append.2 (hx.imp hmem hmem)
  · exact List.mem_append.2 (hy.imp hmem hmem)

theorem plain_signedFile :
    (signedFile 1 (repeatedKey 5)).Plain ∧ (signedFile 2 (repeatedKey 7)).Plain := by
  constructor
  · refine ⟨(signedFile 1 (repeatedKey 5)).root.get (by decide +kernel), ?_, ?_⟩
    · exact (Option.some_get _).symm
    · decide +kernel
  · refine ⟨(signedFile 2 (repeatedKey 7)).root.get (by decide +kernel), ?_, ?_⟩
    · exact (Option.some_get _).symm
    · decide +kernel

theorem digest_identifies_bundle_instance :
    (digestOf 1 = digestOf 2 ↔ SameFiles (oneFile 1) (oneFile 2)) ∧
      verify lastBytes keyedSignatures (signedFile 1 (repeatedKey 5)) =
        .ok { verifyingKey := repeatedKey 5, bundleDir := signedFile 1 (repeatedKey 5) } ∧
      (verify lastBytes keyedSignatures (signedFile 1 (repeatedKey 5)) =
          .ok { verifyingKey := repeatedKey 5, bundleDir := signedFile 1 (repeatedKey 5) } ↔
        SameFiles (oneFile 1) (signedFile 1 (repeatedKey 5)) ∧
          HoldsSignature keyedSignatures (signedFile 1 (repeatedKey 5)) (repeatedKey 5)
            (digestOf 1)) := by
  have hsign : signBundle lastBytes keyedSignatures (oneFile 1) (repeatedKey 5) =
      .ok (signedFile 1 (repeatedKey 5)) := by decide +kernel
  have hdigest : canonicalDigest lastBytes (oneFile 1) = .ok (digestOf 1) := by decide +kernel
  have hopen : (signedFile 1 (repeatedKey 5)).openSig = .bytes (BundleSig.serialize
      (⟨repeatedKey 5, keyedSignatures.sign (repeatedKey 5) (digestOf 1).1⟩ :
        BundleSig keyedSignatures)) := by decide +kernel
  obtain ⟨hdigests, hsigned⟩ := digest_identifies_bundle lastBytes
  obtain ⟨haccepted, digest, hdir, hlater⟩ := hsigned keyedSignatures readsBack_keyedSignatures
    correct_keyedSignatures (oneFile 1) _ (repeatedKey 5) hsign
  obtain rfl : digestOf 1 = digest := Except.ok.inj (hdigest.symm.trans hdir)
  refine ⟨hdigests (oneFile 1) (oneFile 2) _ _ ?_ hdigest (by decide +kernel), haccepted,
    hlater _ {(repeatedKey 5, digestOf 1)} ?_ ?_ ?_ ?_⟩
  · exact noCollision_of_list (by decide +kernel)
  · exact plain_signedFile.1
  · exact noCollision_of_list (by decide +kernel)
  · rintro key digest ⟨data, sig, hdata, hparse, rfl, hvalid⟩
    rw [hopen] at hdata
    obtain rfl := Opened.bytes.inj hdata
    rw [parse_serialize readsBack_keyedSignatures] at hparse
    obtain rfl := Except.ok.inj hparse
    have hmade := keyedSignatures_made hvalid
    rw [keyedSignatures_sign_inj hmade]
    rfl
  · rintro digest h
    exact (Prod.mk.inj h).2

/-- **A changed bundle that somebody else signs is accepted.** The scheme is correct and a valid
signature is one its key made, and still an accepted bundle need not hold the files that were
signed first. -/
theorem resigned_bundle_accepted :
    keyedSignatures.ReadsBack ∧ keyedSignatures.Correct ∧
      (∀ key message signature, keyedSignatures.verifyStrict key message signature = .ok () →
        signature = keyedSignatures.sign key message) ∧
      ¬ ∀ (dir signedDir later : BundleDir) (key digest : Bytes32),
        signBundle lastBytes keyedSignatures dir key = .ok signedDir →
          canonicalDigest lastBytes dir = .ok digest → later.Plain →
            NoCollision lastBytes dir later →
              ((∃ verified, verify lastBytes keyedSignatures later = .ok verified) ↔
                SameFiles dir later ∧ ∃ vk, HoldsSignature keyedSignatures later vk digest) := by
  refine ⟨readsBack_keyedSignatures, correct_keyedSignatures, fun _ _ _ => keyedSignatures_made, ?_⟩
  intro h
  have hsign : signBundle lastBytes keyedSignatures (oneFile 2) (repeatedKey 7) =
      .ok (signedFile 2 (repeatedKey 7)) := by decide +kernel
  obtain ⟨digest, _, hdigest, hholds⟩ :=
    signBundle_ok readsBack_keyedSignatures correct_keyedSignatures hsign
  have haccepted : verify lastBytes keyedSignatures (signedFile 2 (repeatedKey 7)) =
      .ok { verifyingKey := repeatedKey 7, bundleDir := signedFile 2 (repeatedKey 7) } :=
    verify_ok_iff.2 ⟨rfl, digest, hdigest, hholds⟩
  obtain ⟨hsame, _⟩ := (h (oneFile 1) (signedFile 1 (repeatedKey 5)) (signedFile 2 (repeatedKey 7))
    (repeatedKey 5) (digestOf 1) (by decide +kernel) (by decide +kernel) plain_signedFile.2
    (noCollision_of_list (by decide +kernel))).1 ⟨_, haccepted⟩
  exact absurd (hsame [97] (by decide +kernel)) (by decide +kernel)

end PolyPlug.Signing
