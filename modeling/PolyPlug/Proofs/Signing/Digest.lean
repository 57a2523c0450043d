import PolyPlug.Signing.Digest

/-!
# `PolyPlug.Proofs.Signing.Digest`: the digest identifies the files

A directory means a map from `'/'`-joined paths to file contents. The digest reads it
through a walk, a sort and a concatenation, and each loses nothing: the walk collects
the graph of the map once (`mem_covered`, `nodup_covered`), the sorted list depends on
the graph only (`insertionSort_eq_of_mem_iff`), and the buffer has one reading, because
a path has no NUL and a hash has a fixed length (`selfDelimiting_record`).

SHA-256 cannot be injective. `hashed` are the byte strings that one digest hashes, and
what is assumed is that no two of those at hand collide.
-/

set_option autoImplicit false

namespace PolyPlug.Signing

open PolyPlug.Lib

/-! ### The regular files of a listing -/

/-- The regular files below a directory, by the components of their paths. -/
def Listing.files : Listing → List (List FileName × Option Bytes)
  | done                           => []
  | failed                         => []
  | leaf name (.file contents) rest => ([name], contents) :: rest.files
  | leaf _ (.symlink _) rest       => rest.files
  | leaf _ .irregular rest         => rest.files
  | leaf _ .untyped rest           => rest.files
  | dir name entries rest          =>
      entries.files.map (fun f => (name :: f.1, f.2)) ++ rest.files

/-- The path a walk gives a file. -/
def joined (components : List FileName) : Bytes :=
  [separator].intercalate (components.map (·.bytes))

namespace Listing

theorem ne_nil_of_mem_files {f : List FileName × Option Bytes} :
    ∀ {l : Listing}, f ∈ l.files → f.1 ≠ [] := by
  intro l
  induction l with
  | done => intro h; simp [files] at h
  | failed => intro h; simp [files] at h
  | leaf name kind rest ih =>
      intro h
      cases kind with
      | file contents =>
          simp only [files, List.mem_cons] at h
          rcases h with rfl | h
          · simp
          · exact ih h
      | symlink target => exact ih h
      | irregular => exact ih h
      | untyped => exact ih h
  | dir name entries rest _ ih =>
      intro h
      simp only [files, List.mem_append, List.mem_map] at h
      rcases h with ⟨g, _, rfl⟩ | h
      · simp
      · exact ih h

/-- The first component of a file's path is an entry. -/
theorem head_mem_names {f : List FileName × Option Bytes} {name : FileName} {more : List FileName} :
    ∀ {l : Listing}, f ∈ l.files → f.1 = name :: more → name ∈ l.names := by
  intro l
  induction l with
  | done => intro h; simp [files] at h
  | failed => intro h; simp [files] at h
  | leaf n kind rest ih =>
      intro h hf
      cases kind with
      | file contents =>
          simp only [files, List.mem_cons] at h
          rcases h with rfl | h
          · simp [names, (List.cons.inj hf).1]
          · exact List.mem_cons_of_mem _ (ih h hf)
      | symlink target => exact List.mem_cons_of_mem _ (ih h hf)
      | irregular => exact List.mem_cons_of_mem _ (ih h hf)
      | untyped => exact List.mem_cons_of_mem _ (ih h hf)
  | dir n entries rest _ ih =>
      intro h hf
      simp only [files, List.mem_append, List.mem_map] at h
      rcases h with ⟨g, _, rfl⟩ | h
      · simp [names, (List.cons.inj hf).1]
      · exact List.mem_cons_of_mem _ (ih h hf)

/-- No two files have one path. -/
theorem nodup_files : ∀ {l : Listing}, l.Distinct → (l.files.map (·.1)).Nodup := by
  intro l
  induction l with
  | done => intro _; simp [files]
  | failed => intro _; simp [files]
  | leaf name kind rest ih =>
      intro hd
      cases kind with
      | file contents =>
          simp only [files, List.map_cons, List.nodup_cons, List.mem_map, not_exists, not_and]
          exact ⟨fun f hf heq => hd.1 (head_mem_names hf heq), ih hd.2⟩
      | symlink target => exact ih hd.2
      | irregular => exact ih hd.2
      | untyped => exact ih hd.2
  | dir name entries rest ihe ihr =>
      intro hd
      simp only [files, List.map_append, List.map_map]
      refine List.nodup_append.2 ⟨?_, ihr hd.2.2, ?_⟩
      · have hmap : entries.files.map ((·.1) ∘ fun f => (name :: f.1, f.2)) =
            (entries.files.map (·.1)).map (name :: ·) := by simp [List.map_map, Function.comp_def]
        rw [hmap]
        exact (ihe hd.2.1).map fun _ _ h => (List.cons.inj h).2
      · rintro path hp _ hq rfl
        obtain ⟨f, _, rfl⟩ := List.mem_map.1 hp
        obtain ⟨g, hg, heq⟩ := List.mem_map.1 hq
        exact hd.1 (head_mem_names hg heq)

/-- The path of a file opens it. -/
theorem fileAt_of_mem_files {f : List FileName × Option Bytes} :
    ∀ {l : Listing}, l.Distinct → f ∈ l.files → l.fileAt (f.1.map (·.bytes)) = f.2 := by
  intro l
  induction l generalizing f with
  | done => intro _ h; simp [files] at h
  | failed => intro _ h; simp [files] at h
  | leaf name kind rest ih =>
      intro hd h
      -- a file further on has another first component
      have hskip : f ∈ rest.files → f.1.map (·.bytes) ≠ [name.bytes] := by
        intro hf heq
        obtain ⟨n, hn, hbytes⟩ := List.map_eq_singleton_iff.1 heq
        exact hd.1 (FileName.ext hbytes ▸ head_mem_names hf hn)
      have hrest : f ∈ rest.files →
          (leaf name kind rest).fileAt (f.1.map (·.bytes)) = f.2 := fun hf => by
        rw [fileAt, if_neg (hskip hf), ih hd.2 hf]
      cases kind with
      | file contents =>
          simp only [files, List.mem_cons] at h
          rcases h with rfl | h
          · simp [fileAt, Leaf.contents]
          · exact hrest h
      | symlink target => exact hrest h
      | irregular => exact hrest h
      | untyped => exact hrest h
  | dir name entries rest ihe ihr =>
      intro hd h
      simp only [files, List.mem_append, List.mem_map] at h
      rcases h with ⟨g, hg, rfl⟩ | h
      · obtain ⟨second, more, hcons⟩ := List.exists_cons_of_ne_nil (ne_nil_of_mem_files hg)
        have hin := ihe hd.2.1 hg
        simp only [hcons, List.map_cons] at hin ⊢
        rw [fileAt, if_pos rfl, hin]
      · have hin := ihr hd.2.2 h
        obtain ⟨first, more, hcons⟩ := List.exists_cons_of_ne_nil (ne_nil_of_mem_files h)
        have hne : first ≠ name := fun heq => hd.1 (heq ▸ head_mem_names h hcons)
        cases more with
        | nil =>
            simp only [hcons, List.map_cons, List.map_nil] at hin ⊢
            rw [fileAt, hin]
            simp
        | cons second more =>
            simp only [hcons, List.map_cons] at hin ⊢
            rw [fileAt, if_neg (fun heq => hne (FileName.ext heq)), hin]

/-- What a path opens is a file of the listing. -/
theorem mem_files_of_fileAt {c : Bytes} : ∀ {l : Listing} {path : List Bytes},
    l.fileAt path = some c → ∃ f ∈ l.files, f.1.map (·.bytes) = path ∧ f.2 = some c := by
  intro l
  induction l with
  | done => intro path h; simp [fileAt] at h
  | failed => intro path h; simp [fileAt] at h
  | leaf name kind rest ih =>
      intro path h
      rw [fileAt] at h
      have hsub : rest.files ⊆ (leaf name kind rest).files := by
        cases kind <;> simp [files]
      split at h
      · next heq =>
        cases kind with
        | file contents => exact ⟨([name], contents), by simp [files], by simp [heq], h⟩
        | symlink target => cases h
        | irregular => cases h
        | untyped => cases h
      · obtain ⟨f, hf, hfc⟩ := ih h
        exact ⟨f, hsub hf, hfc⟩
  | dir name entries rest ihe ihr =>
      intro path h
      have hrest : rest.fileAt path = some c →
          ∃ f ∈ (dir name entries rest).files, f.1.map (·.bytes) = path ∧ f.2 = some c := by
        intro h
        obtain ⟨f, hf, hfc⟩ := ihr h
        exact ⟨f, by simp [files, hf], hfc⟩
      rcases path with _ | ⟨first, _ | ⟨second, more⟩⟩
      · exact hrest (by simpa only [fileAt] using h)
      · exact hrest (by simpa only [fileAt] using h)
      · simp only [fileAt] at h
        split at h
        · next heq =>
          obtain ⟨f, hf, hpath, hc⟩ := ihe h
          refine ⟨(name :: f.1, f.2), ?_, by simp [hpath, heq], hc⟩
          exact List.mem_append_left _ (List.mem_map.2 ⟨f, hf, rfl⟩)
        · exact hrest h

end Listing

/-! ### Joined paths -/

theorem splitOn_joined {components : List FileName} (h : components ≠ []) :
    (joined components).splitOn separator = components.map (·.bytes) := by
  refine List.splitOn_intercalate _ ?_ (by simpa using h)
  intro bytes hb
  obtain ⟨name, _, rfl⟩ := List.mem_map.1 hb
  exact name.noSeparator

theorem joined_injOn {a b : List FileName} (ha : a ≠ []) (hb : b ≠ []) (h : joined a = joined b) :
    a = b := by
  have hmap : a.map (·.bytes) = b.map (·.bytes) := by
    rw [← splitOn_joined ha, ← splitOn_joined hb, h]
  exact List.map_injective_iff.2 (fun _ _ => FileName.ext) hmap

/-- A path has no NUL. -/
theorem nul_notMem_joined (components : List FileName) : 0 ∉ joined components := by
  induction components with
  | nil => simp [joined]
  | cons name more ih =>
      cases more with
      | nil => simpa [joined] using name.noNul
      | cons second more =>
          have hstep : joined (name :: second :: more) =
              name.bytes ++ separator :: joined (second :: more) := by
            simp [joined, List.intercalate_cons_cons]
          rw [hstep, List.mem_append, List.mem_cons]
          rintro (h | h | h)
          · exact name.noNul h
          · exact absurd h (by decide)
          · exact ih h

/-! ### The map a directory means -/

/-- The files the digest covers, with the joined path of each. -/
def covered (root : Directory) : List (Bytes × Bytes) :=
  root.listing.files.filterMap fun f =>
    if joined f.1 = sigFileName then none else f.2.map fun bytes => (joined f.1, bytes)

theorem contents_eq_some_iff {root : Directory} {path c : Bytes} :
    root.contents path = some c ↔ ∃ f ∈ root.listing.files, joined f.1 = path ∧ f.2 = some c := by
  constructor
  · intro h
    obtain ⟨f, hf, hpath, hc⟩ := Listing.mem_files_of_fileAt h
    refine ⟨f, hf, ?_, hc⟩
    rw [joined, hpath, List.intercalate_splitOn]
  · rintro ⟨f, hf, rfl, hc⟩
    rw [Directory.contents, splitOn_joined (Listing.ne_nil_of_mem_files hf),
      Listing.fileAt_of_mem_files root.distinct hf, hc]

/-- **The walk collects the graph of the map, `bundle.sig` of the root left out.** -/
theorem mem_covered {root : Directory} {path c : Bytes} :
    (path, c) ∈ covered root ↔ path ≠ sigFileName ∧ root.contents path = some c := by
  rw [contents_eq_some_iff, covered, List.mem_filterMap]
  constructor
  · rintro ⟨f, hf, h⟩
    split at h
    · cases h
    · next hne =>
      obtain ⟨bytes, hb, heq⟩ := Option.map_eq_some_iff.1 h
      obtain ⟨rfl, rfl⟩ := Prod.mk.inj heq
      exact ⟨hne, f, hf, rfl, hb⟩
  · rintro ⟨hne, f, hf, rfl, hc⟩
    exact ⟨f, hf, by rw [if_neg hne, hc]; rfl⟩

/-- **It collects no path twice.** -/
theorem nodup_covered (root : Directory) : ((covered root).map (·.1)).Nodup := by
  have hfiles := Listing.nodup_files root.distinct
  have hne : ∀ f ∈ root.listing.files, f.1 ≠ [] := fun f => Listing.ne_nil_of_mem_files
  have hsub : ((covered root).map (·.1)).Sublist (root.listing.files.map fun f => joined f.1) := by
    rw [covered]
    clear hfiles hne
    induction root.listing.files with
    | nil => simp
    | cons f fs ih =>
        rw [List.filterMap_cons]
        split
        · exact ih.cons _
        · next p hp =>
          have hpath : p.1 = joined f.1 := by
            split at hp
            · cases hp
            · obtain ⟨bytes, _, rfl⟩ := Option.map_eq_some_iff.1 hp
              rfl
          rw [List.map_cons, List.map_cons, hpath]
          exact ih.cons_cons _
  refine hsub.nodup ?_
  have hmap : (root.listing.files.map fun f => joined f.1) =
      (root.listing.files.map (·.1)).map joined := by simp [List.map_map, Function.comp_def]
  rw [hmap]
  refine List.Nodup.map_on ?_ hfiles
  intro a ha b hb h
  obtain ⟨f, hf, rfl⟩ := List.mem_map.1 ha
  obtain ⟨g, hg, rfl⟩ := List.mem_map.1 hb
  exact joined_injOn (hne f hf) (hne g hg) h

/-! ### The walk -/

/-- What the walk keeps of a file below `dir`. -/
def collected (dir : AbsPath) (f : List FileName × Option Bytes) : Option CollectedFile :=
  if joined (dir.below ++ f.1) = sigFileName then none
  else some { relPath := joined (dir.below ++ f.1)
              absPath := { dir with below := dir.below ++ f.1 }
              contents := f.2 }

/-- The walk below the entry `name` keeps what the walk from `dir` does. -/
theorem collected_below (dir : AbsPath) (name : FileName) (f : List FileName × Option Bytes) :
    collected { dir with below := dir.below ++ [name] } f = collected dir (name :: f.1, f.2) := by
  simp [collected, List.append_assoc]

theorem relStr_ok {bundleName : String} {path : AbsPath} {rel : Bytes}
    (h : relStr bundleName path = .ok rel) : rel = joined path.below := by
  rw [relStr] at h
  split at h
  · exact (Except.ok.inj h).symm
  · cases h

/-- **A walk that succeeds has collected the files in their order.** -/
theorem collectFiles_ok {bundleName : String} :
    ∀ {l : Listing} {dir : AbsPath} {result out : List CollectedFile},
      collectFiles bundleName dir l result = .ok out →
        out = result ++ l.files.filterMap (collected dir) := by
  intro l
  induction l with
  | done =>
      intro dir result out h
      rw [← Except.ok.inj h]
      simp [Listing.files]
  | failed => intro dir result out h; cases h
  | dir name entries rest ihe ihr =>
      intro dir result out h
      simp only [collectFiles] at h
      cases hsub : collectFiles bundleName { dir with below := dir.below ++ [name] } entries [] with
      | error e => rw [hsub] at h; cases h
      | ok sub =>
          rw [hsub] at h
          have hout : out = (result ++ sub) ++ rest.files.filterMap (collected dir) := ihr h
          have hbelow : sub = entries.files.filterMap
              (collected { dir with below := dir.below ++ [name] }) := by simpa using ihe hsub
          rw [hout, hbelow, Listing.files, List.filterMap_append, List.filterMap_map,
            List.append_assoc]
          simp only [Function.comp_def, collected_below]
  | leaf name kind rest ih =>
      intro dir result out h
      cases kind with
      | symlink target => cases h
      | irregular => cases h
      | untyped => cases h
      | file contents =>
          simp only [collectFiles] at h
          cases hrel : relStr bundleName { dir with below := dir.below ++ [name] } with
          | error e => rw [hrel] at h; cases h
          | ok rel =>
              rw [hrel] at h
              have hpath : rel = joined (dir.below ++ [name]) := relStr_ok hrel
              change (if rel = sigFileName then _ else _) = _ at h
              split at h
              · next hsig =>
                rw [ih h, Listing.files, List.filterMap_cons_none]
                rw [collected, if_pos (hpath ▸ hsig)]
              · next hsig =>
                have hkeep : collected dir ([name], contents) = some
                    { relPath := rel
                      absPath := { dir with below := dir.below ++ [name] }
                      contents := contents } := by
                  rw [collected, if_neg (hpath ▸ hsig), hpath]
                rw [ih h, Listing.files, List.filterMap_cons_some hkeep, List.append_assoc]
                rfl

/-! ### The buffer -/

/-- A file of the buffer. -/
def CollectedFile.pair (entry : CollectedFile) : Bytes × Bytes :=
  (entry.relPath, entry.contents.getD [])

/-- The buffer of a list of paths and contents. -/
def bufferOf (sha256 : Bytes → Bytes32) (files : List (Bytes × Bytes)) : Bytes :=
  header files.length ++
    (files.insertionSort fun a b => a.1 ≤ b.1).flatMap fun f => record sha256 f.1 f.2

theorem appendFiles_ok {sha256 : Bytes → Bytes32} :
    ∀ {entries : List CollectedFile} {canonical out : Bytes},
      appendFiles sha256 entries canonical = .ok out →
        (∀ entry ∈ entries, entry.contents.isSome) ∧
          out = canonical ++ (entries.map (·.pair)).flatMap fun f => record sha256 f.1 f.2 := by
  intro entries
  induction entries with
  | nil =>
      intro canonical out h
      rw [← Except.ok.inj h]
      simp
  | cons entry entries ih =>
      intro canonical out h
      rw [appendFiles] at h
      split at h
      · cases h
      · next fileBytes hread =>
        obtain ⟨hall, rfl⟩ := ih h
        refine ⟨fun e he => ?_, ?_⟩
        · rcases List.mem_cons.1 he with rfl | he
          · simp [hread]
          · exact hall e he
        · simp [CollectedFile.pair, hread]

/-- Files that can all be read are appended without an error. -/
theorem appendFiles_of_isSome {sha256 : Bytes → Bytes32} :
    ∀ {entries : List CollectedFile} (canonical : Bytes),
      (∀ entry ∈ entries, entry.contents.isSome) →
        appendFiles sha256 entries canonical =
          .ok (canonical ++ (entries.map (·.pair)).flatMap fun f => record sha256 f.1 f.2) := by
  intro entries
  induction entries with
  | nil => intro canonical _; simp [appendFiles]
  | cons entry entries ih =>
      intro canonical hall
      obtain ⟨fileBytes, hread⟩ := Option.isSome_iff_exists.1 (hall entry (by simp))
      rw [appendFiles]
      simp only [hread]
      rw [ih _ fun e he => hall e (List.mem_cons_of_mem _ he)]
      simp [CollectedFile.pair, hread]

/-- Sorting the entries sorts their paths and contents. -/
theorem map_pair_insertionSort (entries : List CollectedFile) :
    (entries.insertionSort pathLe).map (·.pair) =
      (entries.map (·.pair)).insertionSort fun a b => a.1 ≤ b.1 :=
  List.map_insertionSort _ _ _ _ fun _ _ _ _ => Iff.rfl

/-- **The buffer of the entries is the buffer of their paths and contents.** -/
theorem canonicalBuffer_ok {sha256 : Bytes → Bytes32} {entries : List CollectedFile} {out : Bytes}
    (h : canonicalBuffer sha256 entries = .ok out) :
    (∀ entry ∈ entries, entry.contents.isSome) ∧ out = bufferOf sha256 (entries.map (·.pair)) := by
  obtain ⟨hall, rfl⟩ := appendFiles_ok h
  refine ⟨fun entry he => hall entry ((List.mem_insertionSort _).2 he), ?_⟩
  rw [map_pair_insertionSort, bufferOf, List.length_map]

/-- Below the root, with every file read, the walk keeps the covered files. -/
theorem map_pair_filterMap_collected {root : Directory} {display : String}
    (hall : ∀ entry ∈ root.listing.files.filterMap (collected ⟨display, []⟩),
      entry.contents.isSome) :
    (root.listing.files.filterMap (collected ⟨display, []⟩)).map (·.pair) = covered root := by
  rw [covered, List.map_filterMap]
  refine List.filterMap_congr fun f hf => ?_
  rw [collected, List.nil_append]
  split
  · rfl
  · next hne =>
    have hsome := hall _ (List.mem_filterMap.2
      ⟨f, hf, by rw [collected, List.nil_append, if_neg hne]⟩)
    obtain ⟨bytes, hb⟩ := Option.isSome_iff_exists.1 hsome
    have hb : f.2 = some bytes := hb
    simp [CollectedFile.pair, hb]

/-- **What a digest is the hash of.** -/
theorem canonicalDigest_ok {sha256 : Bytes → Bytes32} {bundleDir : BundleDir} {digest : Bytes32}
    (h : canonicalDigest sha256 bundleDir = .ok digest) :
    ∃ root, bundleDir.root = some root ∧ covered root ≠ [] ∧
      digest = sha256 (bufferOf sha256 (covered root)) := by
  rw [canonicalDigest] at h
  cases hroot : bundleDir.root with
  | none => rw [hroot] at h; cases h
  | some root =>
      simp only [hroot] at h
      cases hwalk : collectFiles bundleDir.display { bundleDir := bundleDir.display, below := [] }
          root.listing [] with
      | error e => rw [hwalk] at h; cases h
      | ok entries =>
          rw [hwalk] at h
          change (if entries.isEmpty = true then _ else _) = _ at h
          split at h
          · cases h
          · next hne =>
            cases hbuf : canonicalBuffer sha256 entries with
            | error e => rw [hbuf] at h; cases h
            | ok canonical =>
                rw [hbuf] at h
                obtain ⟨hall, rfl⟩ := canonicalBuffer_ok hbuf
                have hentries := collectFiles_ok hwalk
                rw [List.nil_append] at hentries
                subst hentries
                have hpairs := map_pair_filterMap_collected hall
                refine ⟨root, rfl, ?_, ?_⟩
                · rw [← hpairs]
                  simpa using hne
                · rw [← hpairs]
                  exact (Except.ok.inj h).symm

/-! ### One reading of the buffer -/

theorem length_header (fileCount : Nat) : (header fileCount).length = 29 := by
  have htag : domainSepTag.length = 20 := by decide +kernel
  simp [header, toLeBytes, htag]

/-- The bytes the directory gives the hash: the contents of the covered files and the buffer. -/
def hashed (sha256 : Bytes → Bytes32) (root : Directory) : Set Bytes :=
  { bytes | (∃ path, (path, bytes) ∈ covered root) ∨ bytes = bufferOf sha256 (covered root) }

/-- **A record is a path without NUL, the NUL, and a hash of 32 bytes.** -/
theorem selfDelimitingOn_record {sha256 : Bytes → Bytes32} {S : Set Bytes}
    (hinj : Set.InjOn sha256 S) :
    SelfDelimitingOn ({ path : Bytes | 0 ∉ path } ×ˢ S) fun f => record sha256 f.1 f.2 := by
  have hpath : SelfDelimitingOn { path : Bytes | 0 ∉ path } fun path => path ++ [0] :=
    SelfDelimitingOn.terminated (fun _ h => h) (Set.injOn_id _)
  have hhash : SelfDelimitingOn S fun bytes => (sha256 bytes).1 :=
    SelfDelimitingOn.of_length (fun bytes _ => (sha256 bytes).2)
      (Subtype.val_injective.comp_injOn hinj)
  exact hpath.append hhash

/-- The paths of the covered files have no NUL. -/
theorem nul_notMem_of_mem_covered {root : Directory} {f : Bytes × Bytes} (hf : f ∈ covered root) :
    0 ∉ f.1 := by
  obtain ⟨g, _, hpath, _⟩ := contents_eq_some_iff.1 (mem_covered.1 hf).2
  rw [← hpath]
  exact nul_notMem_joined _

/-- **Buffers whose hashes do not collide are of the same files.** -/
theorem mem_covered_iff_of_bufferOf_eq {sha256 : Bytes → Bytes32} {root root' : Directory}
    (hinj : Set.InjOn sha256 (hashed sha256 root ∪ hashed sha256 root'))
    (h : bufferOf sha256 (covered root) = bufferOf sha256 (covered root')) (f : Bytes × Bytes) :
    f ∈ covered root ↔ f ∈ covered root' := by
  have hrecords := (List.append_inj h (by rw [length_header, length_header])).2
  have hsorted := (selfDelimitingOn_record hinj).flatMap_inj
    (fun f _ => by simp [record]) ?_ ?_ hrecords
  · rw [← List.mem_insertionSort fun a b : Bytes × Bytes => a.1 ≤ b.1, hsorted,
      List.mem_insertionSort]
  · intro f hf
    have hf := (List.mem_insertionSort _).1 hf
    exact ⟨nul_notMem_of_mem_covered hf, .inl (.inl ⟨f.1, hf⟩)⟩
  · intro f hf
    have hf := (List.mem_insertionSort _).1 hf
    exact ⟨nul_notMem_of_mem_covered hf, .inr (.inl ⟨f.1, hf⟩)⟩

/-- **Directories with the same covered files have the same buffer.** -/
theorem bufferOf_eq_of_mem_iff {sha256 : Bytes → Bytes32} {root root' : Directory}
    (h : ∀ f, f ∈ covered root ↔ f ∈ covered root') :
    bufferOf sha256 (covered root) = bufferOf sha256 (covered root') := by
  have hperm : (covered root).Perm (covered root') :=
    (List.perm_ext_iff_of_nodup (List.Nodup.of_map _ (nodup_covered root))
      (List.Nodup.of_map _ (nodup_covered root'))).2 h
  have hsorted := @insertionSort_eq_of_mem_iff (Bytes × Bytes) Bytes Prod.fst (· ≤ ·) _
    ⟨fun a b => List.le_total a.1 b.1⟩ ⟨fun _ _ _ => List.le_trans⟩
    (fun _ _ => List.le_antisymm) _ _ (nodup_covered root) (nodup_covered root') h
  rw [bufferOf, bufferOf, hsorted, hperm.length_eq]

/-! ### The digest -/

/-- The contents of the regular file at a path below the bundle directory. -/
def BundleDir.contents (bundleDir : BundleDir) (path : Bytes) : Option Bytes :=
  bundleDir.root.bind fun root => root.contents path

/-- The two directories hold the same files, `bundle.sig` of the root aside. -/
def SameFiles (a b : BundleDir) : Prop :=
  ∀ path, path ≠ sigFileName → a.contents path = b.contents path

/-- The byte strings the digest of the directory hashes. -/
def BundleDir.hashed (sha256 : Bytes → Bytes32) (bundleDir : BundleDir) : Set Bytes :=
  { bytes | ∃ root, bundleDir.root = some root ∧ bytes ∈ Signing.hashed sha256 root }

/-- The hash does not collide on what the digests of the two directories hash. -/
def NoCollision (sha256 : Bytes → Bytes32) (a b : BundleDir) : Prop :=
  Set.InjOn sha256 (a.hashed sha256 ∪ b.hashed sha256)

theorem sameFiles_iff_mem_covered {a b : BundleDir} {root root' : Directory}
    (ha : a.root = some root) (hb : b.root = some root') :
    SameFiles a b ↔ ∀ f, f ∈ covered root ↔ f ∈ covered root' := by
  have hcontents : ∀ path, a.contents path = root.contents path ∧
      b.contents path = root'.contents path := fun path => by
    simp [BundleDir.contents, ha, hb]
  constructor
  · intro h f
    rw [show f = (f.1, f.2) from rfl, mem_covered, mem_covered]
    refine and_congr_right fun hne => ?_
    rw [← (hcontents f.1).1, ← (hcontents f.1).2, h f.1 hne]
  · intro h path hne
    rw [(hcontents path).1, (hcontents path).2]
    refine Option.ext fun c => ?_
    have hpath := h (path, c)
    rw [mem_covered, mem_covered] at hpath
    simpa [hne] using hpath

/-- **The digests of two directories are equal exactly when they hold the same files.** -/
theorem canonicalDigest_eq_iff {sha256 : Bytes → Bytes32} {a b : BundleDir}
    {digest digest' : Bytes32} (hinj : NoCollision sha256 a b)
    (ha : canonicalDigest sha256 a = .ok digest) (hb : canonicalDigest sha256 b = .ok digest') :
    digest = digest' ↔ SameFiles a b := by
  obtain ⟨root, hroot, _, rfl⟩ := canonicalDigest_ok ha
  obtain ⟨root', hroot', _, rfl⟩ := canonicalDigest_ok hb
  have hmem : ∀ bytes, bytes ∈ hashed sha256 root ∪ hashed sha256 root' →
      bytes ∈ a.hashed sha256 ∪ b.hashed sha256 := by
    rintro bytes (h | h)
    · exact .inl ⟨root, hroot, h⟩
    · exact .inr ⟨root', hroot', h⟩
  have hinj : Set.InjOn sha256 (hashed sha256 root ∪ hashed sha256 root') := hinj.mono hmem
  rw [sameFiles_iff_mem_covered hroot hroot']
  constructor
  · intro h
    exact mem_covered_iff_of_bufferOf_eq hinj
      (hinj (.inl (.inr rfl)) (.inr (.inr rfl)) h)
  · intro h
    rw [bufferOf_eq_of_mem_iff h]

/-! ### Plain directories -/

/-- A plain tree: regular files that can be read and directories, with UTF-8 names. -/
def Listing.Plain : Listing → Prop
  | done                  => True
  | failed                => False
  | leaf name kind rest   => isUtf8 name.bytes ∧ kind.contents.isSome ∧ rest.Plain
  | dir name entries rest => isUtf8 name.bytes ∧ entries.Plain ∧ rest.Plain

/-- Decide it entry by entry. -/
def Listing.decidablePlain : (l : Listing) → Decidable l.Plain
  | done                  => .isTrue trivial
  | failed                => .isFalse nofun
  | leaf name kind rest   =>
      @instDecidableAnd (isUtf8 name.bytes) _ _
        (@instDecidableAnd kind.contents.isSome _ _ rest.decidablePlain)
  | dir name entries rest =>
      @instDecidableAnd (isUtf8 name.bytes) _ _
        (@instDecidableAnd _ _ entries.decidablePlain rest.decidablePlain)

instance (l : Listing) : Decidable l.Plain := l.decidablePlain

/-- A bundle path that is a directory holding a plain tree. -/
def BundleDir.Plain (bundleDir : BundleDir) : Prop :=
  ∃ root ∈ bundleDir.root, root.listing.Plain

theorem relStr_of_isUtf8 {bundleName : String} {path : AbsPath}
    (h : ∀ name ∈ path.below, isUtf8 name.bytes) :
    relStr bundleName path = .ok (joined path.below) := by
  rw [relStr, if_pos (by simpa using h)]
  rfl

/-- **The walk of a plain tree succeeds, and reads every file it keeps.** -/
theorem collectFiles_of_plain (bundleName : String) :
    ∀ (l : Listing) (dir : AbsPath) (result : List CollectedFile),
      l.Plain → (∀ name ∈ dir.below, isUtf8 name.bytes) →
        collectFiles bundleName dir l result = .ok (result ++ l.files.filterMap (collected dir)) ∧
          ∀ f ∈ l.files, f.2.isSome := by
  intro l
  induction l with
  | done => intro dir result _ _; simp [collectFiles, Listing.files]
  | failed => intro dir result h _; exact absurd h (by simp [Listing.Plain])
  | dir name entries rest ihe ihr =>
      intro dir result h hbelow
      have hname : ∀ n ∈ dir.below ++ [name], isUtf8 n.bytes := by
        intro n hn
        rcases List.mem_append.1 hn with hn | hn
        · exact hbelow n hn
        · rw [List.mem_singleton.1 hn]; exact h.1
      obtain ⟨hsub, hsubRead⟩ := ihe { dir with below := dir.below ++ [name] } [] h.2.1 hname
      obtain ⟨hrest, hrestRead⟩ := ihr dir (result ++ entries.files.filterMap
        (collected { dir with below := dir.below ++ [name] })) h.2.2 hbelow
      refine ⟨?_, ?_⟩
      · rw [collectFiles, hsub]
        show collectFiles bundleName dir rest _ = _
        rw [List.nil_append, hrest, Listing.files, List.filterMap_append, List.filterMap_map,
          List.append_assoc]
        simp only [Function.comp_def, collected_below]
      · intro f hf
        rcases List.mem_append.1 hf with hf | hf
        · obtain ⟨g, hg, rfl⟩ := List.mem_map.1 hf
          exact hsubRead g hg
        · exact hrestRead f hf
  | leaf name kind rest ih =>
      intro dir result h hbelow
      have hname : ∀ n ∈ dir.below ++ [name], isUtf8 n.bytes := by
        intro n hn
        rcases List.mem_append.1 hn with hn | hn
        · exact hbelow n hn
        · rw [List.mem_singleton.1 hn]; exact h.1
      cases kind with
      -- A plain tree has files only.
      | symlink target => exact absurd h.2.1 (by simp [Leaf.contents])
      | irregular => exact absurd h.2.1 (by simp [Leaf.contents])
      | untyped => exact absurd h.2.1 (by simp [Leaf.contents])
      | file contents =>
          have hread := (ih dir result h.2.2 hbelow).2
          refine ⟨?_, ?_⟩
          · simp only [collectFiles]
            rw [relStr_of_isUtf8 hname]
            show (if joined (dir.below ++ [name]) = sigFileName then _ else _) = _
            -- `bundle.sig` of the root is left out on both sides.
            split
            · next hsig =>
              rw [(ih dir result h.2.2 hbelow).1, Listing.files,
                List.filterMap_cons_none]
              rw [collected, if_pos hsig]
            · next hsig =>
              rw [(ih dir _ h.2.2 hbelow).1, Listing.files,
                List.filterMap_cons_some (by rw [collected, if_neg hsig]), List.append_assoc]
              rfl
          · intro f hf
            simp only [Listing.files, List.mem_cons] at hf
            rcases hf with rfl | hf
            · exact h.2.1
            · exact hread f hf

/-- **A plain tree with a file to cover has a digest.** -/
theorem canonicalDigest_of_plain {sha256 : Bytes → Bytes32} {bundleDir : BundleDir}
    {root : Directory} (hroot : bundleDir.root = some root) (hplain : root.listing.Plain)
    (hne : covered root ≠ []) :
    canonicalDigest sha256 bundleDir = .ok (sha256 (bufferOf sha256 (covered root))) := by
  obtain ⟨hwalk, hread⟩ := collectFiles_of_plain bundleDir.display root.listing
    { bundleDir := bundleDir.display, below := [] } [] hplain (by simp)
  rw [List.nil_append] at hwalk
  have hall : ∀ entry ∈ root.listing.files.filterMap (collected ⟨bundleDir.display, []⟩),
      entry.contents.isSome := by
    intro entry he
    obtain ⟨f, hf, hentry⟩ := List.mem_filterMap.1 he
    rw [collected] at hentry
    split at hentry
    · cases hentry
    · rw [← Option.some.inj hentry]
      exact hread f hf
  have hpairs := map_pair_filterMap_collected hall
  have hbuffer : canonicalBuffer sha256 (root.listing.files.filterMap
      (collected ⟨bundleDir.display, []⟩)) = .ok (bufferOf sha256 (covered root)) := by
    rw [canonicalBuffer, appendFiles_of_isSome _
      (fun entry he => hall entry ((List.mem_insertionSort _).1 he)), map_pair_insertionSort,
      hpairs, bufferOf, ← hpairs, List.length_map]
  rw [canonicalDigest, hroot]
  show (collectFiles bundleDir.display ⟨bundleDir.display, []⟩ root.listing [] >>= _) = _
  rw [hwalk]
  show (if _ then _ else _) = _
  rw [if_neg, hbuffer]
  · rfl
  · intro hempty
    rw [List.isEmpty_iff] at hempty
    rw [hempty] at hpairs
    exact hne hpairs.symm

end PolyPlug.Signing
