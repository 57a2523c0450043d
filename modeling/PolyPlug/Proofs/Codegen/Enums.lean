import PolyPlug.Proofs.Codegen.EnumEmission
import Mathlib.Data.Nat.ModEq

/-!
# `PolyPlug.Proofs.Codegen.Enums`: the Rust constants carry the values of an enum

`emission_preserves_iff`: the constants an accepted enum is written as have the values of its
variants exactly where the enum is `Emittable`.

Two computations are compared. The meaning of a value is computed in the width of the
representation throughout. Rust computes the amount of a shift as an `i32` where no constant
gives it a type. `agree_of_values`: where both have a value, it is the same, because the two
amounts agree modulo `256` and both are below `64`.
-/

set_option autoImplicit false

namespace PolyPlug.Codegen

open PolyPlug.Lib
open PolyPlug.Rust

/-! ### The two computations -/

theorem namesConstant_toRust (e : EnumDef) (s : SourceExpr) :
    namesConstant (e.toRust s) = namesVariant s := by
  induction s with
  | operand a =>
    cases a with
    | literal text value => rfl
    | ref name =>
      rw [EnumDef.toRust]
      split
      · rfl
      · rfl
  | negate s ih => exact ih
  | suffix s b ih => cases b
  | binary k l r ihl ihr => rw [EnumDef.toRust, namesConstant, namesVariant, ihl, ihr]

/-- A constant has the value its variant's value has with the amounts in 32 bits. -/
theorem evaluate_toRust (e : EnumDef) {s : SourceExpr} {env envRust : String → Option Nat}
    (henv : ∀ name, SourceOperand.ref name ∈ s.operands →
      envRust (e.constantName name) = env name) :
    evaluate e.repr.type e.repr.rustName envRust (e.toRust s) = computedValue e.repr env s := by
  have hty : ∀ ty, arithmetic (fun amount => if namesConstant amount then e.repr.type else i32)
      (operandValue e.repr.type envRust) (castValue e.repr.type e.repr.rustName envRust) ty
        (e.toRust s) =
      arithmetic (fun amount => if namesVariant amount then e.repr.type else i32)
        (sourceOperandValue e.repr env) (fun _ _ _ => none) ty s := by
    induction s with
    | operand a =>
      intro ty
      cases a with
      | literal text value => rfl
      | ref name =>
        have hname := henv name (List.mem_singleton_self _)
        rw [EnumDef.toRust]
        split
        · show (if ty = e.repr.type then envRust (e.constantName name) else none) = _
          rw [hname]
          rfl
        · show (if e.repr.rustName = e.repr.rustName ∧ ty = e.repr.type then
            envRust (e.constantName name) else none) = _
          rw [hname]
          simp only [true_and]
          rfl
    | negate s ih =>
      intro ty
      rw [EnumDef.toRust, arithmetic, ih henv]
      rfl
    | suffix s b ih => cases b
    | binary k l r ihl ihr =>
      intro ty
      have hl := ihl fun name hn => henv name (List.mem_append_left _ hn)
      have hr := ihr fun name hn => henv name (List.mem_append_right _ hn)
      rw [EnumDef.toRust, arithmetic, arithmetic, hl, hr, hr, namesConstant_toRust]
  exact hty _

/-- Every width is a multiple of eight bits, and at most 64. -/
theorem ReprType.bits_bound (repr : ReprType) : 256 ∣ 2 ^ repr.bits ∧ repr.bits ≤ 64 := by
  cases repr with
  | u8 => exact ⟨by decide, by decide⟩
  | u16 => exact ⟨by decide, by decide⟩
  | u32 => exact ⟨by decide, by decide⟩
  | u64 => exact ⟨by decide, by decide⟩

/-- The type of a value or of the amount of a shift. -/
theorem type_bound {repr : ReprType} {ty : IntType} (h : ty = repr.type ∨ ty = i32) :
    256 ∣ 2 ^ ty.bits ∧ ty.bits ≤ 64 ∧ ty.limit ≤ 2 ^ ty.bits := by
  rcases h with rfl | rfl
  · exact ⟨repr.bits_bound.1, repr.bits_bound.2, Nat.le_refl _⟩
  · exact ⟨by decide, by decide, by decide⟩

theorem sourceOperandValue_lt {repr : ReprType} {env : String → Option Nat}
    (henv : ∀ name n, env name = some n → n < 2 ^ repr.bits) {ty : IntType}
    (hty : ty = repr.type ∨ ty = i32) {a : SourceOperand} {n : Nat}
    (h : sourceOperandValue repr env ty a = some n) : n < 2 ^ ty.bits := by
  cases a with
  | literal text value =>
    rw [sourceOperandValue] at h
    split at h
    · next hlimit =>
      obtain rfl := Option.some.inj h
      exact Nat.lt_of_lt_of_le hlimit (type_bound hty).2.2
    · cases h
  | ref name =>
    rw [sourceOperandValue] at h
    split at h
    · next heq => exact heq ▸ henv name n h
    · cases h

/-- Equal amounts move values that agree on their low bits to values that do. -/
theorem shift_modEq {x y amount w w' : Nat} (hw : 256 ∣ 2 ^ w) (hw' : 256 ∣ 2 ^ w')
    (h : x ≡ y [MOD 256]) :
    (x <<< amount) % 2 ^ w ≡ (y <<< amount) % 2 ^ w' [MOD 256] := by
  have hleft : (x <<< amount) % 2 ^ w ≡ x <<< amount [MOD 256] := Nat.mod_mod_of_dvd _ hw
  have hright : (y <<< amount) % 2 ^ w' ≡ y <<< amount [MOD 256] := Nat.mod_mod_of_dvd _ hw'
  refine hleft.trans (Nat.ModEq.trans ?_ hright.symm)
  rw [Nat.shiftLeft_eq, Nat.shiftLeft_eq]
  exact h.mul_right _

theorem or_modEq {x y x' y' : Nat} (hx : x ≡ x' [MOD 256]) (hy : y ≡ y' [MOD 256]) :
    x ||| y ≡ x' ||| y' [MOD 256] := by
  show (x ||| y) % 2 ^ 8 = (x' ||| y') % 2 ^ 8
  rw [Nat.or_mod_two_pow, Nat.or_mod_two_pow]
  exact congrArg₂ (· ||| ·) hx hy

theorem complement_modEq {x y w w' : Nat} (hw : 256 ∣ 2 ^ w) (hw' : 256 ∣ 2 ^ w')
    (hx : x < 2 ^ w) (hy : y < 2 ^ w') (h : x ≡ y [MOD 256]) :
    2 ^ w - 1 - x ≡ 2 ^ w' - 1 - y [MOD 256] := by
  obtain ⟨a, ha⟩ := hw
  obtain ⟨b, hb⟩ := hw'
  have h : x % 256 = y % 256 := h
  show (2 ^ w - 1 - x) % 256 = (2 ^ w' - 1 - y) % 256
  omega

section
variable {repr : ReprType} {env env' : String → Option Nat}

/-- Where the meaning and the computation with amounts in 32 bits have a value, they agree at
the type of the representation, and on the low bits at every type. -/
theorem arithmetic_agree (henv : ∀ name n, env name = some n → n < 2 ^ repr.bits)
    (henv' : ∀ name n, env' name = some n → n < 2 ^ repr.bits)
    (hagree : ∀ name n m, env name = some n → env' name = some m → n = m) {s : SourceExpr}
    {ty : IntType} (hty : ty = repr.type ∨ ty = i32) {n m : Nat}
    (hn : arithmetic (fun _ => repr.type) (sourceOperandValue repr env) (fun _ _ _ => none)
      repr.type s = some n)
    (hm : arithmetic (fun amount => if namesVariant amount then repr.type else i32)
      (sourceOperandValue repr env') (fun _ _ _ => none) ty s = some m) :
    (ty = repr.type → n = m) ∧ n ≡ m [MOD 256] := by
  induction s generalizing ty n m with
  | operand a =>
    cases a with
    | literal text value =>
      simp only [arithmetic, sourceOperandValue] at hn hm
      split at hn
      · split at hm
        · obtain rfl := Option.some.inj hn
          obtain rfl := Option.some.inj hm
          exact ⟨fun _ => rfl, rfl⟩
        · cases hm
      · cases hn
    | ref name =>
      simp only [arithmetic, sourceOperandValue, if_true] at hn hm
      split at hm
      · obtain rfl := hagree name n m hn hm
        exact ⟨fun _ => rfl, rfl⟩
      · cases hm
  | negate s ih =>
    obtain ⟨x, hx, rfl⟩ := Option.map_eq_some_iff.mp hn
    obtain ⟨y, hy, rfl⟩ := Option.map_eq_some_iff.mp hm
    obtain ⟨heq, hmod⟩ := ih hty hx hy
    refine ⟨?_, ?_⟩
    · rintro rfl
      rw [heq rfl]
    · have hxlt := arithmetic_lt (fun a n => sourceOperandValue_lt henv (.inl rfl))
        (fun _ b => b.elim) hx
      have hylt := arithmetic_lt (fun a n => sourceOperandValue_lt henv' hty)
        (fun _ b => b.elim) hy
      exact complement_modEq (type_bound (.inl rfl)).1 (type_bound hty).1 hxlt hylt hmod
  | suffix s b ih => cases b
  | binary k l r ihl ihr =>
    rw [arithmetic] at hn hm
    split at hn
    · next hk =>
      rw [if_pos hk] at hm
      obtain ⟨x, hx, hn⟩ := Option.bind_eq_some_iff.mp hn
      obtain ⟨a, ha, hn⟩ := Option.bind_eq_some_iff.mp hn
      obtain ⟨y, hy, hm⟩ := Option.bind_eq_some_iff.mp hm
      obtain ⟨b, hb, hm⟩ := Option.bind_eq_some_iff.mp hm
      split at hn
      · next halt =>
        split at hm
        · next hblt =>
          obtain rfl := Option.some.inj hn
          obtain rfl := Option.some.inj hm
          have hamount : (if namesVariant r then repr.type else i32) = repr.type ∨
              (if namesVariant r then repr.type else i32) = i32 := by
            split
            · exact .inl rfl
            · exact .inr rfl
          -- the amounts agree on the low bits, and are below the widths
          have hab : a = b := by
            have hmod : a % 256 = b % 256 := (ihr hamount ha hb).2
            have hawidth : a < 64 := Nat.lt_of_lt_of_le halt (type_bound (.inl rfl)).2.1
            have hbwidth : b < 64 := Nat.lt_of_lt_of_le hblt (type_bound hty).2.1
            omega
          obtain ⟨heq, hmod⟩ := ihl hty hx hy
          subst hab
          refine ⟨?_, shift_modEq (type_bound (.inl rfl)).1 (type_bound hty).1 hmod⟩
          rintro rfl
          rw [heq rfl]
        · cases hm
      · cases hn
    · next hk =>
      rw [if_neg hk] at hm
      obtain ⟨x, hx, hn⟩ := Option.bind_eq_some_iff.mp hn
      obtain ⟨a, ha, rfl⟩ := Option.map_eq_some_iff.mp hn
      obtain ⟨y, hy, hm⟩ := Option.bind_eq_some_iff.mp hm
      obtain ⟨b, hb, rfl⟩ := Option.map_eq_some_iff.mp hm
      obtain ⟨heql, hmodl⟩ := ihl hty hx hy
      obtain ⟨heqr, hmodr⟩ := ihr hty ha hb
      refine ⟨?_, or_modEq hmodl hmodr⟩
      rintro rfl
      rw [heql rfl, heqr rfl]

end

/-! ### The values of all variants -/

theorem lookupValue_cons (entry : String × Option Nat) (env : List (String × Option Nat))
    (name : String) :
    lookupValue (entry :: env) name = if entry.1 = name then entry.2 else lookupValue env name := by
  rw [lookupValue, List.find?_cons]
  split
  · next h => rw [if_pos (of_decide_eq_true h), Option.bind_some]
  · next h => rw [if_neg (of_decide_eq_false h), lookupValue]

/-- Two entries for one variant. -/
structure AgreeEntry (repr : ReprType) (a b : String × Option Nat) : Prop where
  name : a.1 = b.1
  value : ∀ n m, a.2 = some n → b.2 = some m → n = m
  left_lt : ∀ n, a.2 = some n → n < 2 ^ repr.bits
  right_lt : ∀ n, b.2 = some n → n < 2 ^ repr.bits

theorem lookupValue_agree {repr : ReprType} {env env' : List (String × Option Nat)}
    (h : List.Forall₂ (AgreeEntry repr) env env') (name : String) :
    AgreeEntry repr (name, lookupValue env name) (name, lookupValue env' name) := by
  induction h with
  | nil => exact ⟨rfl, nofun, nofun, nofun⟩
  | @cons a b env env' hab h ih =>
    rw [lookupValue_cons, lookupValue_cons, ← hab.name]
    split
    · exact ⟨rfl, hab.value, hab.left_lt, hab.right_lt⟩
    · exact ih

/-- Where the meaning of a variant and its computation with amounts in 32 bits have a value,
it is the same. -/
theorem agree_of_values {repr : ReprType} (items : List (String × SourceExpr))
    {env env' : List (String × Option Nat)} (h : List.Forall₂ (AgreeEntry repr) env env') :
    List.Forall₂ (fun value computed => ∀ n m, value = some n → computed = some m → n = m)
      (valuesFrom (sourceValue repr) env items) (valuesFrom (computedValue repr) env' items) := by
  induction items generalizing env env' with
  | nil => exact .nil
  | cons item items ih =>
    obtain ⟨name, s⟩ := item
    have henv := fun name => lookupValue_agree h name
    have hentry : AgreeEntry repr (name, sourceValue repr (lookupValue env) s)
        (name, computedValue repr (lookupValue env') s) := by
      refine ⟨rfl, fun n m hn hm => ?_, fun n hn => ?_, fun n hn => ?_⟩
      · exact (arithmetic_agree (fun name => (henv name).left_lt) (fun name => (henv name).right_lt)
          (fun name => (henv name).value) (.inl rfl) hn hm).1 rfl
      · exact arithmetic_lt
          (fun _ _ => sourceOperandValue_lt (fun name => (henv name).left_lt) (.inl rfl)) nofun hn
      · exact arithmetic_lt
          (fun _ _ => sourceOperandValue_lt (fun name => (henv name).right_lt) (.inl rfl)) nofun hn
    refine .cons hentry.value (ih (List.rel_append h (.cons hentry .nil)))

/-- The constants are looked up as the variants are. -/
theorem lookupValue_map {f : String → String} {names : List String}
    (hf : ∀ a ∈ names, ∀ b ∈ names, f a = f b → a = b) {env : List (String × Option Nat)}
    (henv : ∀ entry ∈ env, entry.1 ∈ names) {name : String} (hname : name ∈ names) :
    lookupValue (env.map fun entry => (f entry.1, entry.2)) (f name) = lookupValue env name := by
  induction env with
  | nil => rfl
  | cons entry env ih =>
    rw [List.map_cons, lookupValue_cons, lookupValue_cons,
      ih fun other h => henv other (List.mem_cons_of_mem _ h)]
    have hiff : f entry.1 = f name ↔ entry.1 = name :=
      ⟨hf _ (henv entry List.mem_cons_self) _ hname, congrArg f⟩
    simp only [hiff]

section
variable {classes : CharClasses} {e : EnumDef}

/-- A variant named in a value stands before it. -/
theorem Accepted.refs_before (hacc : Accepted classes e) {before after : List EnumVariant}
    {v : EnumVariant} (heq : e.variants = before ++ v :: after) {ts : List SourceToken}
    (hts : sourceTokens v.value = some ts) {name : String} (hname : SourceToken.ref name ∈ ts) :
    name ∈ before.map EnumVariant.name := by
  have hchecked : validateChars classes v.value e.name v.name (before.map EnumVariant.name)
      v.value.toList.length ((pieces isWordChar v.value.toList).flatMap Piece.text) = .ok () := by
    rw [text_pieces]
    exact hacc.values before v after heq
  exact declared_of_validateChars (Lexes.of_lex hts) (maximal_pieces _) (by rw [text_pieces])
    hchecked hname

theorem Accepted.refs_mem (hacc : Accepted classes e) {v : EnumVariant} (hv : v ∈ e.variants)
    {ts : List SourceToken} (hts : sourceTokens v.value = some ts) {name : String}
    (hname : SourceToken.ref name ∈ ts) : name ∈ e.names := by
  obtain ⟨before, after, heq⟩ := List.append_of_mem hv
  rw [EnumDef.names, heq, List.map_append]
  exact List.mem_append_left _ (hacc.refs_before heq hts hname)

/-- The constants have the values of the variants with the amounts in 32 bits. -/
theorem valuesFrom_toRust (hacc : Accepted classes e)
    (hinj : ∀ a ∈ e.names, ∀ b ∈ e.names, e.constantName a = e.constantName b → a = b)
    {variants : List EnumVariant} {source : List SourceExpr}
    (hwf : List.Forall₂ (fun (v : EnumVariant) s => SourceReads v.value s) variants source)
    {before : List EnumVariant} (heq : e.variants = before ++ variants)
    {env : List (String × Option Nat)} (henv : env.map Prod.fst = before.map EnumVariant.name) :
    valuesFrom (fun env r => evaluate e.repr.type e.repr.rustName env r)
        (env.map fun entry => (e.constantName entry.1, entry.2))
        (((variants.map EnumVariant.name).map e.constantName).zip (source.map e.toRust)) =
      valuesFrom (computedValue e.repr) env ((variants.map EnumVariant.name).zip source) := by
  induction hwf generalizing before env with
  | nil => rfl
  | @cons v s variants source hs hwf ih =>
    obtain ⟨ts, hts, htree⟩ := hs
    have hnames : ∀ entry ∈ env, entry.1 ∈ e.names := by
      intro entry hentry
      have hmem : entry.1 ∈ before.map EnumVariant.name := henv ▸ List.mem_map_of_mem hentry
      rw [EnumDef.names, heq, List.map_append]
      exact List.mem_append_left _ hmem
    have hvalue := @evaluate_toRust e s (lookupValue env)
      (lookupValue (env.map fun entry => (e.constantName entry.1, entry.2))) fun name hname => by
        have hv : v ∈ e.variants := by rw [heq]; simp
        exact lookupValue_map hinj hnames
          (hacc.refs_mem hv hts ((ref_mem_operands htree).mpr hname))
    simp only [List.map_cons, List.zip_cons_cons, valuesFrom, hvalue]
    refine congrArg _ ?_
    have hnext := @ih (before ++ [v]) (by rw [heq, List.append_assoc]; rfl)
      (env ++ [(v.name, computedValue e.repr (lookupValue env) s)])
      (by rw [List.map_append, henv, List.map_append]; rfl)
    rw [List.map_append] at hnext
    exact hnext

theorem constantNames_eq (classes : CharClasses) (e : EnumDef) :
    (generateRustEnum classes e).map Prod.fst = e.constantNames := by
  rw [generateRustEnum, List.map_map, EnumDef.constantNames, EnumDef.names, List.map_map]
  rfl

theorem constantTexts_eq (classes : CharClasses) (e : EnumDef) :
    (generateRustEnum classes e).map Prod.snd = e.variants.map (e.constantValue classes) := by
  rw [generateRustEnum, List.map_map]
  rfl

/-- Different variants have different constants, where no two constants of a bitflag share a
name. -/
theorem constantName_injective (hnames : e.bitflag = true → e.constantNames.Nodup) :
    ∀ a ∈ e.names, ∀ b ∈ e.names, e.constantName a = e.constantName b → a = b := by
  intro a ha b hb heq
  cases hbitflag : e.bitflag with
  | true => exact List.inj_on_of_nodup_map (hnames hbitflag) ha hb heq
  | false =>
    simp only [EnumDef.constantName, hbitflag, Bool.false_eq_true, if_false] at heq
    exact heq

/-- The values of the constants. -/
theorem rustValues_toRust (hacc : Accepted classes e) {source : List SourceExpr}
    (hwf : e.WellFormed source) (hnames : e.bitflag = true → e.constantNames.Nodup) :
    e.rustValues (source.map e.toRust) = e.computedValues source :=
  @valuesFrom_toRust classes e hacc (constantName_injective hnames) e.variants source hwf [] rfl
    [] rfl

theorem agree_of_sourceValues (e : EnumDef) (source : List SourceExpr) :
    List.Forall₂ (fun value computed => ∀ n m, value = some n → computed = some m → n = m)
      (e.sourceValues source) (e.computedValues source) :=
  agree_of_values _ .nil

/-- A value survives where it can be computed. -/
theorem survives_iff {values computed : List (Option Nat)}
    (h : List.Forall₂ (fun value computed => ∀ n m, value = some n → computed = some m → n = m)
      values computed) :
    List.Forall₂ (fun value computed => ∀ n, value = some n → computed = some n) values computed ↔
      List.Forall₂ (fun value computed => value.isSome = true → computed.isSome = true)
        values computed := by
  induction h with
  | nil => exact ⟨fun _ => .nil, fun _ => .nil⟩
  | @cons value c values computed hagree h ih =>
    rw [List.forall₂_cons, List.forall₂_cons, ih]
    refine and_congr_left fun _ => ⟨fun hsurvives hsome => ?_, fun hsome n hn => ?_⟩
    · obtain ⟨n, hn⟩ := Option.isSome_iff_exists.mp hsome
      rw [hsurvives n hn]
      rfl
    · obtain ⟨m, hm⟩ := Option.isSome_iff_exists.mp (hsome (by rw [hn]; rfl))
      rw [hm, hagree n m hn hm]

/-- The constants of an emittable enum read as the expressions its values are written as. -/
theorem reads_of_emittable (hacc : Accepted classes e) {source : List SourceExpr}
    (h : Emittable e source) {variants : List EnumVariant}
    (hwf : List.Forall₂ (fun (v : EnumVariant) s => SourceReads v.value s) variants source)
    (hmem : ∀ v ∈ variants, v ∈ e.variants) :
    List.Forall₂ (fun (text : String) r => Reads text r)
      (variants.map (e.constantValue classes)) (source.map e.toRust) := by
  have hblanks := h.blanks
  have htokens := h.tokens
  clear h
  induction hwf with
  | nil => exact .nil
  | @cons v s variants source hs hwf ih =>
    obtain ⟨ts, hts, htree⟩ := hs
    have hv := hmem v List.mem_cons_self
    exact .cons (reads_toRust hacc hts htree (fun name => hacc.refs_mem hv hts) (hblanks v hv)
      (htokens v hv ts hts)) (ih fun w hw => hmem w (List.mem_cons_of_mem _ hw))

/-- Constants that read with the operands of their variants come from values that survive. -/
theorem emittable_of_all_read (hacc : Accepted classes e) {variants : List EnumVariant}
    {source : List SourceExpr} {rust : List ConstExpr}
    (hwf : List.Forall₂ (fun (v : EnumVariant) s => SourceReads v.value s) variants source)
    (hreads : List.Forall₂ (fun (text : String) r => Reads text r)
      (variants.map (e.constantValue classes)) rust)
    (hoperands : List.Forall₂ (fun (s : SourceExpr) (r : ConstExpr) =>
      r.operands = s.operands.map e.operandImage) source rust)
    (hmem : ∀ v ∈ variants, v ∈ e.variants) :
    rust = source.map e.toRust ∧ ∀ v ∈ variants,
      (∀ c ∈ v.value.toList, isWhitespace c = true → isPatternWhitespace c = true) ∧
        ∀ ts, sourceTokens v.value = some ts → TokensEmittable e ts := by
  induction hwf generalizing rust with
  | nil =>
    cases hreads with
    | nil => exact ⟨rfl, nofun⟩
  | @cons v s variants source hs hwf ih =>
    cases hreads with
    | @cons _ r _ rust hread hreads =>
      cases hoperands with
      | cons hoperand hoperands =>
        obtain ⟨ts, hts, htree⟩ := hs
        have hv := hmem v List.mem_cons_self
        have hrefs : ∀ name, SourceToken.ref name ∈ ts → name ∈ e.names :=
          fun name => hacc.refs_mem hv hts
        obtain ⟨hblanks, htokens⟩ := emittable_of_reads hacc hts htree hrefs hread hoperand
        obtain ⟨hrust, hlater⟩ :=
          ih hreads hoperands fun w hw => hmem w (List.mem_cons_of_mem _ hw)
        have hr : r = e.toRust s :=
          reads_unique hread (reads_toRust hacc hts htree hrefs hblanks htokens)
        refine ⟨by rw [hr, hrust, List.map_cons], fun w hw => ?_⟩
        rcases List.mem_cons.mp hw with rfl | hw
        · refine ⟨hblanks, fun ts' hts' => ?_⟩
          obtain rfl := Option.some.inj (hts.symm.trans hts')
          exact htokens
        · exact hlater w hw

end

/-- The Rust constants of an accepted enum carry the values of its variants exactly
where the enum is emittable. -/
theorem emission_preserves_iff {classes : CharClasses} {raw : RawEnum} {e : EnumDef}
    (haccepted : lowerEnum classes raw = .ok e) {source : List SourceExpr}
    (hwf : e.WellFormed source) : EmissionPreserves classes e source ↔ Emittable e source := by
  have hacc := accepted_of_lowerEnum haccepted
  constructor
  · rintro ⟨rust, hreads, hoperands, hvalues, hnames⟩
    rw [constantTexts_eq] at hreads
    rw [constantNames_eq] at hnames
    obtain ⟨rfl, hall⟩ := emittable_of_all_read hacc hwf hreads hoperands fun v hv => hv
    rw [rustValues_toRust hacc hwf hnames, survives_iff (agree_of_sourceValues e source)] at hvalues
    exact ⟨fun v hv => (hall v hv).1, fun v hv => (hall v hv).2, hvalues, hnames⟩
  · intro h
    refine ⟨source.map e.toRust, ?_, ?_, ?_, ?_⟩
    · rw [constantTexts_eq]
      exact reads_of_emittable hacc h hwf fun v hv => hv
    · rw [List.forall₂_map_right_iff]
      exact List.forall₂_same.mpr fun s _ => operands_toRust e s
    · rw [rustValues_toRust hacc hwf h.names, survives_iff (agree_of_sourceValues e source)]
      exact h.amounts
    · rw [constantNames_eq]
      exact h.names

/-! ### Two enums -/

/-- The classes of ASCII, with no other letters or digits. -/
def asciiClasses : CharClasses where
  isAlphabetic := Char.isAlpha
  isNumeric := Char.isDigit
  isUppercase := Char.isUpper
  alphabetic_ascii _ _ := rfl
  numeric_ascii _ _ := rfl
  alphabetic_whitespace c hblank := by
    refine Bool.eq_false_iff.mpr fun halpha => ?_
    have hword : isIdentifierChar c = true := by simp [isIdentifierChar, Char.isAlphanum, halpha]
    exact absurd hblank (Bool.eq_false_iff.mp (isWhitespace_of_identifierChar hword))
  numeric_whitespace c hblank := by
    refine Bool.eq_false_iff.mpr fun hdigit => ?_
    have hword : isIdentifierChar c = true := by simp [isIdentifierChar, Char.isAlphanum, hdigit]
    exact absurd hblank (Bool.eq_false_iff.mp (isWhitespace_of_identifierChar hword))

/-- A bitflag of `u8` with two variants, the second over the first. -/
def twoFlags (value : String) : RawEnum where
  name := "Flags"
  repr := "u8"
  bitflag := true
  variants := [⟨"A", "1"⟩, ⟨"B", value⟩]

/-- The enum `twoFlags` is lowered to. -/
def twoFlagsDef (value : String) : EnumDef where
  name := "Flags"
  repr := .u8
  bitflag := true
  variants := [⟨"A", "1"⟩, ⟨"B", value⟩]

theorem derives_one : Derives sourceGrammar (.level 0) [.literal "1" 1]
    (.operand (.literal "1" 1)) :=
  .of_unary (.plain (.operand (SourceOperandTokens.literal "1" 1)))

theorem derives_variant : Derives sourceGrammar .unary [.ref "A"] (.operand (.ref "A")) :=
  .plain (.operand (SourceOperandTokens.ref "A"))

theorem sourceReads_one : SourceReads "1" (.operand (.literal "1" 1)) :=
  ⟨[.literal "1" 1], by decide +kernel, .succ (.succ derives_one)⟩

/-- `B = A << 1` survives. -/
theorem emission_preserves_instance :
    EmissionPreserves asciiClasses (twoFlagsDef "A << 1")
      [.operand (.literal "1" 1),
        .binary 0 (.operand (.ref "A")) (.operand (.literal "1" 1))] := by
  have htokens : sourceTokens "A << 1" = some [.ref "A", .shl, .literal "1" 1] := by
    decide +kernel
  have hone : sourceTokens "1" = some [.literal "1" 1] := by decide +kernel
  have hshift : SourceReads "A << 1"
      (.binary 0 (.operand (.ref "A")) (.operand (.literal "1" 1))) := by
    refine ⟨_, htokens, ?_⟩
    have hchain : Derives sourceGrammar (.chain 0 (.operand (.ref "A")))
        [.shl, .literal "1" 1] (.binary 0 (.operand (.ref "A")) (.operand (.literal "1" 1))) :=
      .operator rfl derives_one .noOperator
    exact .succ (.level (.of_unary derives_variant) hchain)
  refine (@emission_preserves_iff asciiClasses (twoFlags "A << 1") (twoFlagsDef "A << 1")
    (by decide +kernel) _ (.cons sourceReads_one (.cons hshift .nil))).mpr ⟨?_, ?_, ?_, ?_⟩
  · intro v hv
    rcases List.mem_cons.mp hv with rfl | hv
    · exact chars_forall (by decide)
    · obtain rfl := List.mem_singleton.mp hv
      exact chars_forall (by decide)
  · intro v hv ts hts
    rcases List.mem_cons.mp hv with rfl | hv
    · obtain rfl := Option.some.inj (hone.symm.trans hts)
      exact ⟨by decide, by simp; decide +kernel, nofun, nofun⟩
    · obtain rfl := List.mem_singleton.mp hv
      obtain rfl := Option.some.inj (htokens.symm.trans hts)
      exact ⟨by decide, by simp; decide +kernel, by simp; decide +kernel, nofun⟩
  · exact .cons (fun _ => by decide +kernel) (.cons (fun _ => by decide +kernel) .nil)
  · exact fun _ => by decide +kernel

/-- `B = ~A` is accepted, and copied as it is. -/
theorem tilde_is_copied :
    ¬ ∀ (classes : CharClasses) (raw : RawEnum) (e : EnumDef) (source : List SourceExpr),
      lowerEnum classes raw = .ok e → e.WellFormed source →
        EmissionPreserves classes e source := by
  intro hall
  have htilde : SourceReads "~A" (.negate (.operand (.ref "A"))) := by
    refine ⟨[.tilde, .ref "A"], by decide +kernel, ?_⟩
    exact .succ (.succ (.of_unary (.negate derives_variant)))
  obtain ⟨rust, hreads, -⟩ := hall asciiClasses (twoFlags "~A") (twoFlagsDef "~A") _
    (by decide +kernel) (.cons sourceReads_one (.cons htilde .nil))
  have htexts : (generateRustEnum asciiClasses (twoFlagsDef "~A")).map Prod.snd = ["1", "~A"] := by
    decide +kernel
  rw [htexts] at hreads
  cases hreads with
  | cons _ hreads =>
    cases hreads with
    | cons hread _ =>
      obtain ⟨ts, hts, -⟩ := hread
      have hnone : tokens "~A" = none := by decide +kernel
      exact nomatch hnone.symm.trans hts

end PolyPlug.Codegen
