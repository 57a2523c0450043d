import PolyPlug.Codegen.Bundle
import PolyPlug.Proofs.Rust.Str

/-!
# `PolyPlug.Proofs.Codegen.Version`: the versions the code generator reads

The components of a parsed version have 32 bits, so their decimal spelling is read back
by every parser of the runtime.
-/

set_option autoImplicit false

namespace PolyPlug.Codegen

open PolyPlug.Rust
open PolyPlug.Abi

/-- A component that parses is the number it spells. -/
theorem parseU32_of_parseComponent {s component : String} {n : Nat}
    (h : parseComponent s component = .ok n) : parseU32 component = some n := by
  rw [parseComponent] at h
  split at h
  · next m hm =>
    obtain rfl := Except.ok.inj h
    exact hm
  · cases h

/-- The major and the minor of a version that parses have 32 bits. -/
theorem lt_of_parseVersion {s : String} {version : Version} (h : parseVersion s = .ok version) :
    version.major < 2 ^ 32 ∧ version.minor < 2 ^ 32 := by
  rw [parseVersion] at h
  dsimp only [bind, Except.bind] at h
  split at h
  · cases h
  · next major hmajor =>
    split at h
    · cases h
    · next minor hminor =>
      split at h
      · cases h
      · split at h
        · cases h
        · split at h
          · cases h
          · obtain rfl := Except.ok.inj h
            exact ⟨lt_of_parseU32 (parseU32_of_parseComponent hmajor),
              lt_of_parseU32 (parseU32_of_parseComponent hminor)⟩

end PolyPlug.Codegen
