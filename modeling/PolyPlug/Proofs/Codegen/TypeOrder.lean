import PolyPlug.Proofs.Codegen.ApiTypes
import PolyPlug.Proofs.Codegen.Enums
import PolyPlug.Lib.Postorder

/-!
# `PolyPlug.Proofs.Codegen.TypeOrder`: each type once, behind the types of its fields

`topologically_order_types` visits the types depth first, with the types of the fields as
children, and lists a type when it leaves it. So its list is a postorder
(`topologicallyOrderTypes_walk`), in which a type without cycles stands behind its fields.

It looks a type up by its name, so of two declarations of one name it lists the first one twice
over, that is once. `typesInOrder_iff` says for which accepted schemas every declaration is listed
once, behind its fields, and in the order of the schema as far as that is free.
-/

set_option autoImplicit false

namespace PolyPlug.Codegen

open PolyPlug.Lib

/-! ### The graph of the fields -/

/-- The name in a reference. -/
def ResolvedTypeRef.name? : ResolvedTypeRef → Option String
  | .userDefined n => some n
  | _              => none

/-- The names of a list of types. -/
def typeNames (types : List ResolvedType) : List String := types.map ResolvedType.name

/-- The first type of a name. -/
def typeOf (types : List ResolvedType) (n : String) : Option ResolvedType :=
  types.find? fun t => t.name = n

/-- The other types of the list that the fields of a type refer to. -/
def otherTypes (types : List ResolvedType) (n : String) (fields : List ResolvedField) :
    List String :=
  (fields.filterMap fun f => f.ty.name?).filter fun dep => dep ∈ typeNames types ∧ dep ≠ n

/-- The other types that the fields of the type of a name refer to. -/
def fieldDeps (types : List ResolvedType) (n : String) : List String :=
  ((typeOf types n).map fun ty => otherTypes types n ty.fields).getD []

theorem exists_typeOf {types : List ResolvedType} {n : String} (h : n ∈ typeNames types) :
    ∃ ty, typeOf types n = some ty ∧ ty ∈ types ∧ ty.name = n := by
  obtain ⟨t, ht, hname⟩ := List.mem_map.mp h
  cases hty : typeOf types n with
  | none => exact absurd (decide_eq_true hname) (List.find?_eq_none.mp hty t ht)
  | some ty =>
    have hfind : types.find? (fun t => decide (t.name = n)) = some ty := hty
    have hname := List.find?_some hfind
    rw [decide_eq_true_iff] at hname
    exact ⟨ty, rfl, List.mem_of_find?_eq_some hfind, hname⟩

theorem typeOf_eq_none {types : List ResolvedType} {n : String} (h : n ∉ typeNames types) :
    typeOf types n = none := by
  refine List.find?_eq_none.mpr fun t ht heq => h ?_
  rw [← of_decide_eq_true heq]
  exact List.mem_map_of_mem ht

theorem mem_typeNames_of_dep {types : List ResolvedType} {n dep : String}
    (h : dep ∈ fieldDeps types n) : dep ∈ typeNames types := by
  rw [fieldDeps] at h
  cases hty : typeOf types n with
  | none =>
    rw [hty] at h
    cases h
  | some ty =>
    rw [hty] at h
    exact (of_decide_eq_true (List.mem_filter.mp h).2).1

/-! ### The visit -/

/-- The types that the visit does not enter again. -/
def TypeVisit.marked (s : TypeVisit) : Finset String := s.emitted ∪ s.inProgress

/-- The visit of a list of names that leaves `new`, from one state to the next. -/
structure Visits (types : List ResolvedType) (s s' : TypeVisit) (cs new : List String) : Prop where
  walk : Walk (fieldDeps types) s.marked cs new
  emitted : s'.emitted = s.emitted ∪ new.toFinset
  inProgress : s'.inProgress = s.inProgress
  ordered : s'.ordered = s.ordered ++ new.filterMap (typeOf types)

namespace Visits

variable {types : List ResolvedType} {s s' s'' : TypeVisit} {cs cs' new new' : List String}

theorem marked (h : Visits types s s' cs new) : s'.marked = s.marked ∪ new.toFinset := by
  rw [TypeVisit.marked, h.emitted, h.inProgress, TypeVisit.marked, Finset.union_right_comm]

theorem stay (s : TypeVisit) : Visits types s s [] [] :=
  ⟨.nil _, by simp, rfl, by simp⟩

theorem append (h : Visits types s s' cs new) (h' : Visits types s' s'' cs' new') :
    Visits types s s'' (cs ++ cs') (new ++ new') := by
  refine ⟨h.walk.append (by rw [← h.marked]; exact h'.walk), ?_, ?_, ?_⟩
  · rw [h'.emitted, h.emitted, List.toFinset_append, Finset.union_assoc]
  · rw [h'.inProgress, h.inProgress]
  · rw [h'.ordered, h.ordered, List.filterMap_append, List.append_assoc]

end Visits

section
variable (types : List ResolvedType)

/-- The names that are not marked yet. -/
def unmarked (s : TypeVisit) : Finset String := (typeNames types).toFinset \ s.marked

variable {types}

theorem unmarked_le {s s' : TypeVisit} {cs new : List String} (h : Visits types s s' cs new) :
    (unmarked types s').card ≤ (unmarked types s).card := by
  refine Finset.card_le_card (Finset.sdiff_subset_sdiff subset_rfl ?_)
  rw [h.marked]
  exact Finset.subset_union_left

/-- A marked name is left at once. -/
theorem visitTypeDeps_marked {fuel : Nat} {n : String} {s : TypeVisit} (hfuel : 0 < fuel)
    (hn : n ∈ s.marked) : visitTypeDeps types fuel n s = some s := by
  obtain ⟨k, rfl⟩ := Nat.exists_eq_succ_of_ne_zero hfuel.ne'
  rw [visitTypeDeps, if_pos (Finset.mem_union.mp hn)]

/-- The loop over the fields of the type `n`, from the calls it makes. -/
theorem visitFields {fuel : Nat} {n : String}
    (hcalls : ∀ dep s, dep ∈ typeNames types → (unmarked types s).card < fuel →
      ∃ new s', visitTypeDeps types fuel dep s = some s' ∧ Visits types s s' [dep] new)
    {fields : List ResolvedField} :
    ∀ {s : TypeVisit}, n ∈ s.inProgress → (unmarked types s).card < fuel →
      ∃ new s', fields.foldlM (visitField types (visitTypeDeps types fuel)) s = some s' ∧
        Visits types s s' (otherTypes types n fields) new := by
  induction fields with
  | nil => exact fun {s} _ _ => ⟨[], s, rfl, .stay s⟩
  | cons f fields ih =>
    intro s hn hcard
    rw [List.foldlM_cons]
    -- A field without a call leaves the state as it is.
    have hskip : visitField types (visitTypeDeps types fuel) s f = some s →
        otherTypes types n (f :: fields) = otherTypes types n fields →
        ∃ new s', (visitField types (visitTypeDeps types fuel) s f >>= fun s =>
            fields.foldlM (visitField types (visitTypeDeps types fuel)) s) = some s' ∧
          Visits types s s' (otherTypes types n (f :: fields)) new := by
      intro hstay hlist
      rw [hstay, hlist]
      exact ih hn hcard
    cases hf : f.ty with
    | userDefined dep =>
      by_cases hdep : dep ∈ typeNames types
      · have hcall : visitField types (visitTypeDeps types fuel) s f =
            visitTypeDeps types fuel dep s := by
          rw [visitField, hf]
          exact if_pos hdep
        by_cases hself : dep = n
        · refine hskip ?_ (by simp [otherTypes, hf, ResolvedTypeRef.name?, hself])
          rw [hcall]
          exact visitTypeDeps_marked (by omega) (Finset.mem_union_right _ (hself ▸ hn))
        · obtain ⟨new, s', hs', hvisit⟩ := hcalls dep s hdep hcard
          have hcard' := unmarked_le hvisit
          obtain ⟨new', s'', hs'', hvisit'⟩ := @ih s' (by rw [hvisit.inProgress]; exact hn)
            (by omega)
          have hlist : otherTypes types n (f :: fields) = [dep] ++ otherTypes types n fields := by
            simp [otherTypes, hf, ResolvedTypeRef.name?, hdep, hself]
          rw [hcall, hs', hlist]
          exact ⟨new ++ new', s'', hs'', hvisit.append hvisit'⟩
      · refine hskip ?_ (by simp [otherTypes, hf, ResolvedTypeRef.name?, hdep])
        rw [visitField, hf]
        exact if_neg hdep
    | primitive p =>
      refine hskip ?_ (by simp [otherTypes, hf, ResolvedTypeRef.name?])
      rw [visitField, hf]
    | abiType b =>
      refine hskip ?_ (by simp [otherTypes, hf, ResolvedTypeRef.name?])
      rw [visitField, hf]

/-- **One call visits depth first, and has fuel enough.** -/
theorem visitTypeDeps_visits {fuel : Nat} :
    ∀ {n : String} {s : TypeVisit}, n ∈ typeNames types → (unmarked types s).card < fuel →
      ∃ new s', visitTypeDeps types fuel n s = some s' ∧ Visits types s s' [n] new := by
  induction fuel with
  | zero => exact fun _ hcard => absurd hcard (Nat.not_lt_zero _)
  | succ fuel ih =>
    intro n s hn hcard
    by_cases hmarked : n ∈ s.marked
    · refine ⟨[], s, visitTypeDeps_marked (Nat.succ_pos fuel) hmarked, ?_⟩
      exact ⟨.skip hmarked (.nil _), by simp, rfl, by simp⟩
    · obtain ⟨ty, hty, -, hname⟩ := exists_typeOf hn
      have hfind : types.find? (fun t => decide (t.name = n)) = some ty := hty
      rw [visitTypeDeps, if_neg (fun h => hmarked (Finset.mem_union.mpr h)), hfind]
      have hentered : ({ s with inProgress := insert n s.inProgress } : TypeVisit).marked
          = insert n s.marked := by
        rw [TypeVisit.marked, TypeVisit.marked, Finset.union_insert]
      have hless : (unmarked types { s with inProgress := insert n s.inProgress }).card < fuel := by
        have hlt : (unmarked types { s with inProgress := insert n s.inProgress }).card
            < (unmarked types s).card := by
          refine Finset.card_lt_card ⟨Finset.sdiff_subset_sdiff subset_rfl ?_, fun hsub => ?_⟩
          · rw [hentered]
            exact Finset.subset_insert n _
          · have hmem := hsub (Finset.mem_sdiff.mpr ⟨List.mem_toFinset.mpr hn, hmarked⟩)
            refine (Finset.mem_sdiff.mp hmem).2 ?_
            rw [hentered]
            exact Finset.mem_insert_self n _
        omega
      obtain ⟨below, s', hs', hvisit⟩ := visitFields (fun dep s hdep hcard => ih hdep hcard)
        (show n ∈ ({ s with inProgress := insert n s.inProgress } : TypeVisit).inProgress from
          Finset.mem_insert_self n s.inProgress) hless
      have hwalk := hvisit.walk
      rw [hentered] at hwalk
      have hdeps : fieldDeps types n = otherTypes types n ty.fields := by
        rw [fieldDeps, hty]
        rfl
      refine ⟨below ++ [n], _, by dsimp only; rw [hs']; rfl, ?_⟩
      refine ⟨.enter hmarked (by rw [hdeps]; exact hwalk) (.nil _), ?_, ?_, ?_⟩
      · show insert n s'.emitted = _
        rw [hvisit.emitted, List.toFinset_append, List.toFinset_cons, List.toFinset_nil,
          ← Finset.union_assoc, Finset.union_insert, Finset.union_empty]
      · show s'.inProgress.erase n = _
        rw [hvisit.inProgress]
        exact Finset.erase_insert fun h => hmarked (Finset.mem_union_right _ h)
      · show s'.ordered ++ [ty] = _
        rw [hvisit.ordered, List.filterMap_append, List.append_assoc]
        simp [hty]

/-- The list of the types is a postorder of their names, each with its first type. -/
theorem topologicallyOrderTypes_walk (types : List ResolvedType) :
    ∃ new, Walk (fieldDeps types) ∅ (typeNames types) new ∧
      topologicallyOrderTypes types = new.filterMap (typeOf types) := by
  have hloop : ∀ (l : List ResolvedType) (s : TypeVisit), l ⊆ types →
      ∃ new s', l.foldlM (fun s t => visitTypeDeps types (types.length + 1) t.name s) s = some s' ∧
        Visits types s s' (typeNames l) new := by
    intro l
    induction l with
    | nil => exact fun s _ => ⟨[], s, rfl, .stay s⟩
    | cons t l ih =>
      intro s hsub
      have hcard : (unmarked types s).card < types.length + 1 := by
        have hle : (unmarked types s).card ≤ (typeNames types).length :=
          (Finset.card_le_card Finset.sdiff_subset).trans (List.toFinset_card_le _)
        rw [typeNames, List.length_map] at hle
        omega
      obtain ⟨new, s', hs', hvisit⟩ := visitTypeDeps_visits
        (List.mem_map_of_mem (hsub List.mem_cons_self)) hcard
      obtain ⟨new', s'', hs'', hvisit'⟩ := ih s' fun x hx => hsub (List.mem_cons_of_mem t hx)
      rw [List.foldlM_cons, hs']
      exact ⟨new ++ new', s'', hs'', hvisit.append hvisit'⟩
  obtain ⟨new, s', hs', hvisit⟩ := hloop types ⟨∅, ∅, []⟩ (List.Subset.refl types)
  have hwalk := hvisit.walk
  refine ⟨new, hwalk, ?_⟩
  have hrun : visitTypes types = some s' := hs'
  rw [topologicallyOrderTypes, hrun]
  exact hvisit.ordered

end

/-! ### The list -/

section
variable {types : List ResolvedType}

/-- The order of the types, with their names. -/
theorem exists_order (types : List ResolvedType) :
    Walk (fieldDeps types) ∅ (typeNames types) (typeNames (topologicallyOrderTypes types)) ∧
      ∀ t, t ∈ topologicallyOrderTypes types ↔ typeOf types t.name = some t := by
  obtain ⟨new, hwalk, horder⟩ := topologicallyOrderTypes_walk types
  have hlisted : ∀ n ∈ new, n ∈ typeNames types := by
    intro n hn
    obtain ⟨c, hc, hreach⟩ := hwalk.reached n hn
    induction hreach with
    | refl => exact hc
    | tail _ hdep _ => exact mem_typeNames_of_dep hdep
  have hnames : typeNames (new.filterMap (typeOf types)) = new := by
    clear horder hwalk
    induction new with
    | nil => rfl
    | cons n new ih =>
      obtain ⟨ty, hty, -, hname⟩ := exists_typeOf (hlisted n List.mem_cons_self)
      rw [List.filterMap_cons_some hty]
      show ty.name :: typeNames (new.filterMap (typeOf types)) = _
      rw [hname, ih fun m hm => hlisted m (List.mem_cons_of_mem n hm)]
  rw [horder, hnames]
  refine ⟨hwalk, fun t => ?_⟩
  rw [List.mem_filterMap]
  constructor
  · rintro ⟨n, hn, hty⟩
    obtain ⟨ty, hty', -, hname⟩ := exists_typeOf (hlisted n hn)
    rw [hty'] at hty
    cases hty
    rw [hname]
    exact hty'
  · intro hty
    have hname : t.name ∈ typeNames types := List.mem_map_of_mem (List.mem_of_find?_eq_some hty)
    exact ⟨t.name, (hwalk.covers _ hname).resolve_left (Finset.notMem_empty _), hty⟩

/-- Names stand once in the order. -/
theorem nodup_order (types : List ResolvedType) :
    (typeNames (topologicallyOrderTypes types)).Nodup := (exists_order types).1.nodup

theorem mem_order_names {n : String} :
    n ∈ typeNames (topologicallyOrderTypes types) ↔ n ∈ typeNames types := by
  obtain ⟨hwalk, hmem⟩ := exists_order types
  constructor
  · intro hn
    obtain ⟨t, ht, rfl⟩ := List.mem_map.mp hn
    exact List.mem_map_of_mem (List.mem_of_find?_eq_some ((hmem t).mp ht))
  · intro hn
    exact (hwalk.covers n hn).resolve_left (Finset.notMem_empty n)

/-- Of types with names of their own each is the type of its name. -/
theorem typeOf_name (hnodup : (typeNames types).Nodup) {t : ResolvedType} (ht : t ∈ types) :
    typeOf types t.name = some t := by
  obtain ⟨ty, hty, hmem, hname⟩ := exists_typeOf (List.mem_map_of_mem (f := ResolvedType.name) ht)
  rw [hty, List.inj_on_of_nodup_map hnodup hmem ht hname]

/-- Types with names of their own are listed once each. -/
theorem order_perm (hnodup : (typeNames types).Nodup) :
    (topologicallyOrderTypes types).Perm types := by
  refine (List.perm_ext_iff_of_nodup (List.Nodup.of_map _ (nodup_order types))
    (List.Nodup.of_map _ hnodup)).mpr fun t => ?_
  rw [(exists_order types).2 t]
  exact ⟨List.mem_of_find?_eq_some, typeOf_name hnodup⟩

/-- The type of a name does not depend on the order. -/
theorem typeOf_order (types : List ResolvedType) (n : String) :
    typeOf (topologicallyOrderTypes types) n = typeOf types n := by
  by_cases hn : n ∈ typeNames types
  · obtain ⟨ty, hty, -, hname⟩ := exists_typeOf hn
    have hmem : ty ∈ topologicallyOrderTypes types :=
      ((exists_order types).2 ty).mpr (by rw [hname]; exact hty)
    rw [hty, ← hname]
    exact typeOf_name (nodup_order types) hmem
  · rw [typeOf_eq_none hn, typeOf_eq_none fun h => hn (mem_order_names.mp h)]

/-- The graph of the fields does not depend on the order. -/
theorem fieldDeps_order (types : List ResolvedType) :
    fieldDeps (topologicallyOrderTypes types) = fieldDeps types := by
  funext n
  simp only [fieldDeps, otherTypes, typeOf_order, mem_order_names]

end

/-! ### Wrappers -/

/-- The wrappers of the references, each once. -/
theorem noteWrapper_foldl {refs : List ResolvedTypeRef} :
    ∀ {names : List String}, names.Nodup → (refs.foldl noteWrapper names).Nodup ∧
      ∀ n, n ∈ refs.foldl noteWrapper names ↔
        n ∈ names ∨ .userDefined n ∈ refs ∧ (arrayElementName n).isSome := by
  induction refs with
  | nil => exact fun h => ⟨h, fun n => by simp⟩
  | cons r refs ih =>
    intro names hnames
    rw [List.foldl_cons]
    cases r with
    | userDefined m =>
      rw [noteWrapper]
      split
      · next hnew =>
        obtain ⟨hnodup, hmem⟩ := @ih (names ++ [m])
          (List.nodup_append.mpr ⟨hnames, List.nodup_singleton m, by
            rintro x hx y hy rfl
            rw [List.mem_singleton.mp hy] at hx
            exact hnew.2 hx⟩)
        refine ⟨hnodup, fun n => ?_⟩
        rw [hmem n]
        simp only [List.mem_append, List.mem_cons, List.not_mem_nil, or_false,
          ResolvedTypeRef.userDefined.injEq]
        constructor
        · rintro ((h | rfl) | h)
          · exact .inl h
          · exact .inr ⟨.inl rfl, hnew.1⟩
          · exact .inr ⟨.inr h.1, h.2⟩
        · rintro (h | ⟨rfl | h, hsome⟩)
          · exact .inl (.inl h)
          · exact .inl (.inr rfl)
          · exact .inr ⟨h, hsome⟩
      · next hold =>
        obtain ⟨hnodup, hmem⟩ := ih hnames
        refine ⟨hnodup, fun n => ?_⟩
        rw [hmem n]
        simp only [List.mem_cons, ResolvedTypeRef.userDefined.injEq]
        constructor
        · rintro (h | h)
          · exact .inl h
          · exact .inr ⟨.inr h.1, h.2⟩
        · rintro (h | ⟨rfl | h, hsome⟩)
          · exact .inl h
          · exact .inl (Decidable.byContradiction fun hmem => hold ⟨hsome, hmem⟩)
          · exact .inr ⟨h, hsome⟩
    | primitive p =>
      obtain ⟨hnodup, hmem⟩ := ih hnames
      refine ⟨hnodup, fun n => ?_⟩
      show n ∈ refs.foldl noteWrapper names ↔ _
      rw [hmem n]
      simp
    | abiType b =>
      obtain ⟨hnodup, hmem⟩ := ih hnames
      refine ⟨hnodup, fun n => ?_⟩
      show n ∈ refs.foldl noteWrapper names ↔ _
      rw [hmem n]
      simp

theorem typeNames_map_wrapper (names : List String) :
    typeNames (names.map arrayWrapperType) = names := by
  rw [typeNames, List.map_map]
  exact List.map_id names

/-- The synthesized wrappers: one for each name of a wrapper in a reference that no type has. -/
theorem collectArrayWrapperTypes_spec (types : List ResolvedType)
    (contracts hostContracts : List ApiContract) :
    ∃ names : List String,
      collectArrayWrapperTypes types contracts hostContracts = names.map arrayWrapperType ∧
      names.Nodup ∧ ∀ n, n ∈ names ↔
        (.userDefined n ∈ collectedRefs types contracts hostContracts ∧
          (arrayElementName n).isSome) ∧ n ∉ typeNames types := by
  obtain ⟨hnodup, hmem⟩ := @noteWrapper_foldl (collectedRefs types contracts hostContracts) []
    List.nodup_nil
  refine ⟨_, rfl, hnodup.filter _, fun n => ?_⟩
  rw [List.mem_filter]
  have hnone : (!types.any fun t => decide (t.name = n)) = true ↔ n ∉ typeNames types := by
    simp [typeNames]
  rw [hnone]
  exact and_congr_left fun _ => (hmem n).trans (by simp)

/-! ### The types of an accepted schema -/

/-- The contracts of a schema, resolved. -/
def loweredContracts (raw : RawApiSchema) (kind : String) (raws : List RawApiContract) :
    List ApiContract :=
  (raws.mapM (lowerApiContract raw.knownNames kind)).toOption.getD []

/-- The types before they are ordered: the declared ones and the wrappers. -/
def listedTypes (raw : RawApiSchema) : List ResolvedType :=
  declaredTypes raw ++ collectArrayWrapperTypes (declaredTypes raw)
    (loweredContracts raw "guest contract" raw.guestContracts)
    (loweredContracts raw "host contract" raw.hostContracts)

/-- No primitive and no builtin is named like a wrapper. -/
theorem resolvePlainRef_wrapper {e : String} {knownTypes : List String} {r : ResolvedTypeRef}
    (h : resolvePlainRef (arrayWrapperName e) knownTypes = some r) :
    r = .userDefined (arrayWrapperName e) := by
  have hhead : (arrayWrapperName e).toList.head? = some 'A' := by
    rw [arrayWrapperName, String.toList_append]
    rfl
  have hne : ∀ name : String, name.toList.head? ≠ some 'A' → arrayWrapperName e ≠ name := by
    rintro name hname rfl
    exact hname hhead
  have hprimitive : PrimitiveType.parse (arrayWrapperName e) = none := by
    cases hparse : PrimitiveType.parse (arrayWrapperName e) with
    | none => rfl
    | some p =>
      have hname := List.find?_some hparse
      rw [decide_eq_true_iff] at hname
      rw [← hname] at hhead
      cases p <;> exact absurd hhead (by decide)
  have hbuiltin : AbiBuiltin.parse (arrayWrapperName e) = none := by
    rw [AbiBuiltin.parse, if_neg (hne _ (by decide)), if_neg (hne _ (by decide)), if_neg, if_neg]
    · rintro (h | h) <;> exact hne _ (by decide) h
    · rintro (h | h) <;> exact hne _ (by decide) h
  rw [resolvePlainRef, hprimitive, hbuiltin] at h
  dsimp only at h
  split at h
  · cases h
    rfl
  · cases h

namespace Lowered

variable {classes : CharClasses} {raw : RawApiSchema} {ir : ApiIr} (h : Lowered classes raw ir)
include h

theorem listed : ir.types = topologicallyOrderTypes (listedTypes raw) := by
  have hguest : loweredContracts raw "guest contract" raw.guestContracts = ir.contracts := by
    rw [loweredContracts, h.contracts]
    rfl
  have hhost : loweredContracts raw "host contract" raw.hostContracts = ir.hostContracts := by
    rw [loweredContracts, h.hostContracts]
    rfl
  rw [h.ordered, listedTypes, hguest, hhost]

/-- The names of the wrappers, and where they come from. -/
theorem exists_wrappers :
    ∃ names : List String, listedTypes raw = declaredTypes raw ++ names.map arrayWrapperType ∧
      names.Nodup ∧ (∀ n ∈ names, n ∉ raw.types.map RawType.name) ∧
      (∀ n ∈ names, (∃ e ∈ raw.usedElements, n = arrayWrapperName e) ∨
        n ∈ raw.writtenRefs ∧ n ∈ raw.enums.map RawEnum.name ∧ (arrayElementName n).isSome) ∧
      (∀ e ∈ raw.usedElements, arrayWrapperName e ∉ raw.types.map RawType.name →
        arrayWrapperName e ∈ names) ∧
      ∀ n ∈ raw.writtenRefs, n ∈ raw.enums.map RawEnum.name → (arrayElementName n).isSome →
        n ∈ names := by
  have hguest : loweredContracts raw "guest contract" raw.guestContracts = ir.contracts := by
    rw [loweredContracts, h.contracts]
    rfl
  have hhost : loweredContracts raw "host contract" raw.hostContracts = ir.hostContracts := by
    rw [loweredContracts, h.hostContracts]
    rfl
  obtain ⟨names, hlist, hnodup, hmem⟩ :=
    collectArrayWrapperTypes_spec (declaredTypes raw) ir.contracts ir.hostContracts
  have hnames : typeNames (declaredTypes raw) = raw.types.map RawType.name := h.names
  rw [hnames] at hmem
  have hcollected := h.collected
  refine ⟨names, by rw [listedTypes, hguest, hhost, hlist], hnodup, fun n hn => ((hmem n).mp hn).2,
    ?_, ?_, ?_⟩
  · intro n hn
    obtain ⟨⟨href, hsome⟩, hfree⟩ := (hmem n).mp hn
    obtain ⟨s, hs, hres⟩ := hcollected.written_of_ref _ href
    cases hinner : arrayInner s with
    | some e =>
      obtain ⟨heq, -⟩ := refOf_of_arrayInner h.notMem_known hinner hres
      cases heq
      exact .inl ⟨e, List.mem_dedup.mpr (List.mem_filterMap.mpr ⟨s, hs, hinner⟩), rfl⟩
    | none =>
      obtain ⟨rfl, hknown⟩ := resolvePlainRef_userDefined (refOf_of_not_array hinner hres)
      exact .inr ⟨hs, (List.mem_append.mp hknown).resolve_left hfree, hsome⟩
  · intro e he hfree
    obtain ⟨s, hs, hinner⟩ := List.mem_filterMap.mp (List.mem_dedup.mp he)
    obtain ⟨r, hres, hr⟩ := hcollected.ref_of_written s hs
    obtain ⟨rfl, -⟩ := refOf_of_arrayInner h.notMem_known hinner hres
    refine (hmem _).mpr ⟨⟨hr.resolve_left (fun heq => by cases heq), ?_⟩, hfree⟩
    rw [arrayElementName_eq_some.mpr rfl]
    rfl
  · intro n hn henum hsome
    obtain ⟨e, he⟩ := Option.isSome_iff_exists.mp hsome
    obtain rfl := arrayElementName_eq_some.mp he
    obtain ⟨r, hres, hr⟩ := hcollected.ref_of_written _ hn
    have hknown : arrayWrapperName e ∈ raw.knownNames := List.mem_append_right _ henum
    have hinner : arrayInner (arrayWrapperName e) = none := by
      cases hinner : arrayInner (arrayWrapperName e) with
      | none => rfl
      | some e' => exact absurd (mem_of_arrayInner hinner) (h.notMem_known _ hknown)
    obtain rfl := resolvePlainRef_wrapper (refOf_of_not_array hinner hres)
    exact (hmem _).mpr ⟨⟨hr.resolve_left (fun heq => by cases heq), hsome⟩,
      h.noCollision _ henum⟩

end Lowered

/-! ### Once, before use, and in order -/

/-- Two names of a list, neither of which depends on the other or on a later one. -/
structure FreePair (children : String → List String) (names : List String) (i j : Nat)
    (a b : String) : Prop where
  lt : i < j
  left : names[i]? = some a
  right : names[j]? = some b
  left_right : ¬ ProperlyBelow children a b
  right_left : ¬ ProperlyBelow children b a
  left_later : ∀ k c, i < k → names[k]? = some c → ¬ ProperlyBelow children a c
  right_later : ∀ k c, j < k → names[k]? = some c → ¬ ProperlyBelow children b c

/-- Every declaration and a wrapper for each array are listed once, and nothing else. A type of a
field stands before the type of the field, and free pairs keep the order of the schema. -/
structure TypesInOrder (raw : RawApiSchema) (ir : ApiIr) : Prop where
  once : ir.types.Perm (declaredTypes raw ++
    raw.usedElements.map fun e => arrayWrapperType (arrayWrapperName e))
  before : ∀ (i : Nat) (ty : ResolvedType), ir.types[i]? = some ty → ∀ f ∈ ty.fields,
    ∀ n ∈ f.ty.name?, n ≠ ty.name →
    n ∈ typeNames ir.types → ∃ j < i, (typeNames ir.types)[j]? = some n
  stable : ∀ i j a b, FreePair (fieldDeps ir.types) (typeNames (declaredTypes raw)) i j a b →
    [a, b].Sublist (typeNames ir.types)

/-- The names of the types are distinct, no type has the name of a wrapper that is used, and an
enum that has one is no reference but beside the array. No type is below itself. Of a free pair, the
search from the first type on does not meet the later one first. -/
structure Orderly (raw : RawApiSchema) : Prop where
  distinct : (raw.types.map RawType.name).Nodup
  wrapperFree : ∀ e ∈ raw.usedElements, arrayWrapperName e ∉ raw.types.map RawType.name
  enumsPlain : ∀ s ∈ raw.writtenRefs, s ∈ raw.enums.map RawEnum.name →
    ∀ e, arrayElementName s = some e → e ∈ raw.usedElements
  acyclic : ∀ n, ¬ ProperlyBelow (fieldDeps (listedTypes raw)) n n
  met : ∀ i j a b, FreePair (fieldDeps (listedTypes raw)) (typeNames (declaredTypes raw)) i j a b →
    ¬ MetFirst (fieldDeps (listedTypes raw)) b a (typeNames (listedTypes raw))

namespace Lowered

variable {classes : CharClasses} {raw : RawApiSchema} {ir : ApiIr} (h : Lowered classes raw ir)
include h

theorem fieldDeps_eq : fieldDeps ir.types = fieldDeps (listedTypes raw) := by
  rw [h.listed]
  exact fieldDeps_order _

theorem nodup_names : (typeNames ir.types).Nodup := by
  rw [h.listed]
  exact nodup_order _

/-- The declared types are listed, and names of their own are listed once. -/
theorem nodup_listed (hdistinct : (raw.types.map RawType.name).Nodup) :
    (typeNames (listedTypes raw)).Nodup := by
  obtain ⟨names, hlist, hnodup, hfree, -⟩ := h.exists_wrappers
  have hnames : typeNames (listedTypes raw) = raw.types.map RawType.name ++ names := by
    rw [hlist, typeNames, List.map_append, h.names]
    exact congrArg _ (typeNames_map_wrapper names)
  rw [hnames]
  refine List.nodup_append.mpr ⟨hdistinct, hnodup, ?_⟩
  rintro n hn m hm rfl
  exact hfree n hm hn

/-- **Each is listed once** if the names of the types are distinct and a wrapper shares its name
with no type, and with an enum only if the array is used. -/
theorem once_iff :
    ir.types.Perm (declaredTypes raw ++
        raw.usedElements.map fun e => arrayWrapperType (arrayWrapperName e)) ↔
      (raw.types.map RawType.name).Nodup ∧
      (∀ e ∈ raw.usedElements, arrayWrapperName e ∉ raw.types.map RawType.name) ∧
      ∀ s ∈ raw.writtenRefs, s ∈ raw.enums.map RawEnum.name →
        ∀ e, arrayElementName s = some e → e ∈ raw.usedElements := by
  obtain ⟨names, hlist, hnodup, hfree, hfrom, hused, henum⟩ := h.exists_wrappers
  have hmap : raw.usedElements.map (fun e => arrayWrapperType (arrayWrapperName e)) =
      (raw.usedElements.map arrayWrapperName).map arrayWrapperType := by
    rw [List.map_map]
    rfl
  constructor
  · intro hperm
    have hnames : (typeNames ir.types).Perm
        (raw.types.map RawType.name ++ raw.usedElements.map arrayWrapperName) := by
      have hmapped := hperm.map ResolvedType.name
      rw [List.map_append, h.names, hmap] at hmapped
      rw [← typeNames_map_wrapper (raw.usedElements.map arrayWrapperName)]
      exact hmapped
    obtain ⟨hdistinct, -, hdisjoint⟩ :=
      List.nodup_append.mp (hnames.nodup_iff.mp h.nodup_names)
    refine ⟨hdistinct, fun e he hmem => ?_, fun s hs hsenum e helement => ?_⟩
    · exact hdisjoint _ hmem _ (List.mem_map_of_mem he) rfl
    · have hmem : s ∈ typeNames ir.types := by
        rw [h.listed, mem_order_names, hlist, typeNames, List.map_append]
        refine List.mem_append_right _ ?_
        show s ∈ typeNames (names.map arrayWrapperType)
        rw [typeNames_map_wrapper]
        exact henum s hs hsenum (by rw [helement]; rfl)
      rcases List.mem_append.mp (hnames.mem_iff.mp hmem) with htype | hwrapper
      · exact absurd htype (h.noCollision s hsenum)
      · obtain ⟨e', he', rfl⟩ := List.mem_map.mp hwrapper
        rw [arrayElementName_eq_some.mpr rfl] at helement
        cases helement
        exact he'
  · rintro ⟨hdistinct, hwrapper, hplain⟩
    have hsame : names.Perm (raw.usedElements.map arrayWrapperName) := by
      refine (List.perm_ext_iff_of_nodup hnodup ((List.nodup_dedup _).map
        arrayWrapperName_injective)).mpr fun n => ⟨fun hn => ?_, fun hn => ?_⟩
      · rcases hfrom n hn with ⟨e, he, rfl⟩ | ⟨hwritten, hnenum, hsome⟩
        · exact List.mem_map_of_mem he
        · obtain ⟨e, he⟩ := Option.isSome_iff_exists.mp hsome
          rw [arrayElementName_eq_some.mp he]
          exact List.mem_map_of_mem (hplain n hwritten hnenum e he)
      · obtain ⟨e, he, rfl⟩ := List.mem_map.mp hn
        exact hused e he (hwrapper e he)
    rw [h.listed]
    refine (order_perm (h.nodup_listed hdistinct)).trans ?_
    rw [hlist, hmap]
    exact (hsame.map arrayWrapperType).append_left _

/-- The other types of the fields of a listed type. -/
theorem mem_fieldDeps {ty : ResolvedType} (hty : ty ∈ ir.types) {n : String} :
    n ∈ fieldDeps ir.types ty.name ↔
      (∃ f ∈ ty.fields, f.ty.name? = some n) ∧ n ∈ typeNames ir.types ∧ n ≠ ty.name := by
  rw [fieldDeps, typeOf_name h.nodup_names hty]
  show n ∈ otherTypes ir.types ty.name ty.fields ↔ _
  rw [otherTypes, List.mem_filter, List.mem_filterMap, decide_eq_true_iff]

/-- **The types of the fields stand before** if no type is below itself. -/
theorem before_iff :
    (∀ (i : Nat) (ty : ResolvedType), ir.types[i]? = some ty → ∀ f ∈ ty.fields,
        ∀ n ∈ f.ty.name?, n ≠ ty.name → n ∈ typeNames ir.types →
          ∃ j < i, (typeNames ir.types)[j]? = some n) ↔
      ∀ n, ¬ ProperlyBelow (fieldDeps (listedTypes raw)) n n := by
  rw [← h.fieldDeps_eq]
  constructor
  · intro hbefore n hcycle
    -- The position falls from a type to those of its fields.
    have hfalls : ∀ m n, ProperlyBelow (fieldDeps ir.types) m n →
        (typeNames ir.types).idxOf n < (typeNames ir.types).idxOf m := by
      have hstep : ∀ m n, n ∈ fieldDeps ir.types m →
          (typeNames ir.types).idxOf n < (typeNames ir.types).idxOf m := by
        intro m n hdep
        have hm : m ∈ typeNames ir.types := by
          by_contra hm
          rw [fieldDeps, typeOf_eq_none hm] at hdep
          cases hdep
        obtain ⟨ty, -, hty, rfl⟩ := exists_typeOf hm
        obtain ⟨⟨f, hf, hname⟩, hlisted, hne⟩ := (h.mem_fieldDeps hty).mp hdep
        obtain ⟨i, hi⟩ := List.mem_iff_getElem?.mp hty
        obtain ⟨j, hj, hjn⟩ := hbefore i ty hi f hf n hname hne hlisted
        have hin : (typeNames ir.types)[i]? = some ty.name := by
          rw [typeNames, List.getElem?_map, hi]
          rfl
        rw [idxOf_of_getElem? h.nodup_names hin, idxOf_of_getElem? h.nodup_names hjn]
        exact hj
      intro m n hbelow
      induction hbelow with
      | single hdep => exact hstep _ _ hdep
      | tail _ hdep ih => exact (hstep _ _ hdep).trans ih
    exact lt_irrefl _ (hfalls n n hcycle)
  · intro hacyclic i ty hi f hf n hn hne hlisted
    have hty := List.mem_of_getElem? hi
    have hdep : n ∈ fieldDeps ir.types ty.name :=
      (h.mem_fieldDeps hty).mpr ⟨⟨f, hf, hn⟩, hlisted, hne⟩
    have hwalk := (exists_order (listedTypes raw)).1
    rw [← h.listed, ← h.fieldDeps_eq] at hwalk
    rcases hwalk.before_or ty.name (List.mem_map_of_mem hty) n hdep with hsub | hmem | hreach
    · obtain ⟨j, k, hjk, hj, hk⟩ := pair_sublist_iff.mp hsub
      have hin : (typeNames ir.types)[i]? = some ty.name := by
        rw [typeNames, List.getElem?_map, hi]
        rfl
      have hki : k = i := by
        rw [← idxOf_of_getElem? h.nodup_names hin, ← idxOf_of_getElem? h.nodup_names hk]
      exact ⟨j, hki ▸ hjk, hj⟩
    · exact absurd hmem (Finset.notMem_empty n)
    · exact absurd (Relation.TransGen.head' hdep hreach) (hacyclic ty.name)

/-- **Free pairs keep their order** if the search does not meet the later one first. -/
theorem stable_iff (hdistinct : (raw.types.map RawType.name).Nodup)
    (hacyclic : ∀ n, ¬ ProperlyBelow (fieldDeps (listedTypes raw)) n n) :
    (∀ i j a b, FreePair (fieldDeps ir.types) (typeNames (declaredTypes raw)) i j a b →
        [a, b].Sublist (typeNames ir.types)) ↔
      ∀ i j a b,
        FreePair (fieldDeps (listedTypes raw)) (typeNames (declaredTypes raw)) i j a b →
        ¬ MetFirst (fieldDeps (listedTypes raw)) b a (typeNames (listedTypes raw)) := by
  rw [h.fieldDeps_eq]
  refine forall₅_congr fun i j a b hpair => ?_
  have hwalk := (exists_order (listedTypes raw)).1
  rw [← h.listed] at hwalk
  have hne : a ≠ b := by
    rintro rfl
    have hnodup : (typeNames (declaredTypes raw)).Nodup := by
      rw [typeNames, h.names]
      exact hdistinct
    have hij : i = j := by
      rw [← idxOf_of_getElem? hnodup hpair.left, idxOf_of_getElem? hnodup hpair.right]
    exact absurd hij hpair.lt.ne
  have hmem : ∀ n ∈ typeNames (declaredTypes raw), n ∈ typeNames ir.types := by
    intro n hn
    rw [h.listed, mem_order_names, listedTypes, typeNames, List.map_append]
    exact List.mem_append_left _ hn
  refine hwalk.sublist_iff_metFirst hacyclic ?_ ?_ (hmem a (List.mem_of_getElem? hpair.left))
    (hmem b (List.mem_of_getElem? hpair.right))
  · intro hab
    rcases Relation.reflTransGen_iff_eq_or_transGen.mp hab with heq | hbelow
    · exact hne heq.symm
    · exact hpair.left_right hbelow
  · intro hba
    rcases Relation.reflTransGen_iff_eq_or_transGen.mp hba with heq | hbelow
    · exact hne heq
    · exact hpair.right_left hbelow

end Lowered

/-- **The types of an accepted schema are listed once and in order exactly if the schema is
orderly.** -/
theorem typesInOrder_iff (classes : CharClasses) (raw : RawApiSchema) (ir : ApiIr)
    (hok : lowerApi classes raw = .ok ir) : TypesInOrder raw ir ↔ Orderly raw := by
  have h := lowered_of_lowerApi hok
  constructor
  · rintro ⟨honce, hbefore, hstable⟩
    obtain ⟨hdistinct, hfree, hplain⟩ := h.once_iff.mp honce
    have hacyclic := h.before_iff.mp hbefore
    exact ⟨hdistinct, hfree, hplain, hacyclic, (h.stable_iff hdistinct hacyclic).mp hstable⟩
  · rintro ⟨hdistinct, hfree, hplain, hacyclic, hmet⟩
    exact ⟨h.once_iff.mpr ⟨hdistinct, hfree, hplain⟩, h.before_iff.mpr hacyclic,
      (h.stable_iff hdistinct hacyclic).mpr hmet⟩

/-! ### Three schemas -/

/-- A schema of types alone. -/
def typesSchema (types : List RawType) : RawApiSchema where
  types := types
  enums := []
  guestContracts := []
  hostContracts := []

/-- What it is resolved to. -/
def typesIr (types : List ResolvedType) : ApiIr where
  types := types
  enums := []
  contracts := []
  hostContracts := []

/-- A segment of points, declared before the point. -/
def segment : RawApiSchema :=
  typesSchema [⟨"Segment", [⟨"start", "Point"⟩], none⟩, ⟨"Point", [⟨"x", "u32"⟩], none⟩]

/-- The point is listed first. -/
theorem typesInOrder_segment : ∃ ir, lowerApi asciiClasses segment = .ok ir ∧
    typeNames ir.types = ["Point", "Segment"] ∧ (TypesInOrder segment ir ↔ Orderly segment) :=
  ⟨typesIr [⟨"Point", [⟨"x", .primitive .u32⟩], none⟩,
      ⟨"Segment", [⟨"start", .userDefined "Point"⟩], none⟩],
    by decide +kernel, by decide +kernel, typesInOrder_iff asciiClasses _ _ (by decide +kernel)⟩

/-- Two types of one name. -/
def twoPoints : RawApiSchema :=
  typesSchema [⟨"Point", [⟨"x", "u32"⟩], none⟩, ⟨"Point", [⟨"y", "u32"⟩], none⟩]

/-- Two types with a field of each other. -/
def twoNodes : RawApiSchema :=
  typesSchema [⟨"Left", [⟨"r", "Right"⟩], none⟩, ⟨"Right", [⟨"l", "Left"⟩], none⟩]

/-- The second declaration of a name is lost, and of two types with a field of each other one stands
before the type of its field. Both schemas are accepted. -/
theorem types_lost_or_early :
    (∃ ir, lowerApi asciiClasses twoPoints = .ok ir ∧ ¬ TypesInOrder twoPoints ir) ∧
      ∃ ir, lowerApi asciiClasses twoNodes = .ok ir ∧ ¬ TypesInOrder twoNodes ir := by
  refine ⟨⟨typesIr [⟨"Point", [⟨"x", .primitive .u32⟩], none⟩], by decide +kernel, ?_⟩,
    ⟨typesIr [⟨"Right", [⟨"l", .userDefined "Left"⟩], none⟩,
      ⟨"Left", [⟨"r", .userDefined "Right"⟩], none⟩], by decide +kernel, ?_⟩⟩
  · intro h
    exact absurd h.once.length_eq (by decide +kernel)
  · intro h
    obtain ⟨j, hj, -⟩ := h.before 0 _ rfl _ List.mem_cons_self "Left" rfl (by decide)
      (by decide)
    exact absurd hj (Nat.not_lt_zero j)

end PolyPlug.Codegen
