import Mathlib.Data.List.Basic

/-!
# `PolyPlug.Lib.Lexer`: a text cut into words and symbols

A text is cut into its maximal runs of word characters and the single characters
between them (`pieces`). A `Lexicon` reads a run as one token, skips the blanks, and
reads any other character as a token, alone or doubled.

`Lexes.flatMap_replace`: where each run of a text is replaced by other runs and symbols,
what was read of the run before determines what is read after, and the blanks and symbols
stay as they are.
-/

set_option autoImplicit false

namespace PolyPlug.Lib

/-- A run of word characters, or one other character. -/
inductive Piece (α : Type*) where
  | run (xs : List α)
  | one (x : α)
deriving DecidableEq

section
variable {α : Type*}

/-- The characters of a piece. -/
def Piece.text : Piece α → List α
  | .run xs => xs
  | .one x  => [x]

/-- The maximal runs of a text and the characters between them. -/
def pieces (p : α → Bool) : List α → List (Piece α)
  | []      => []
  | x :: xs =>
    if p x then
      match pieces p xs with
      | .run ys :: rest => .run (x :: ys) :: rest
      | rest            => .run [x] :: rest
    else .one x :: pieces p xs

/-- No run follows another, and the runs hold exactly the word characters. -/
inductive MaximalRuns (p : α → Bool) : List (Piece α) → Prop where
  | nil : MaximalRuns p []
  | one {x : α} {ps : List (Piece α)} (hx : p x = false) (h : MaximalRuns p ps) :
      MaximalRuns p (.one x :: ps)
  | run {xs : List α} {ps : List (Piece α)} (hne : xs ≠ []) (hxs : ∀ x ∈ xs, p x = true)
      (hnext : ∀ ys rest, ps ≠ .run ys :: rest) (h : MaximalRuns p ps) :
      MaximalRuns p (.run xs :: ps)

variable {p : α → Bool}

theorem text_pieces (xs : List α) : (pieces p xs).flatMap Piece.text = xs := by
  induction xs with
  | nil => rfl
  | cons x xs ih =>
    rw [pieces]
    split
    · split
      · rename_i hpieces
        rw [hpieces, List.flatMap_cons] at ih
        rw [List.flatMap_cons]
        exact congrArg (x :: ·) ih
      · rw [List.flatMap_cons, ih]
        rfl
    · rw [List.flatMap_cons, ih]
      rfl

theorem maximal_pieces (xs : List α) : MaximalRuns p (pieces p xs) := by
  induction xs with
  | nil => exact .nil
  | cons x xs ih =>
    rw [pieces]
    split
    · rename_i hx
      split
      · rename_i ys rest hpieces
        rw [hpieces] at ih
        cases ih with
        | run hne hys hnext h =>
          refine .run (List.cons_ne_nil _ _) (fun y hy => ?_) hnext h
          rcases List.mem_cons.mp hy with rfl | hy
          · exact hx
          · exact hys y hy
      · rename_i hnext
        exact .run (List.cons_ne_nil _ _) (fun y hy => List.mem_singleton.mp hy ▸ hx) hnext ih
    · rename_i hx
      exact .one (Bool.eq_false_iff.mpr hx) ih

/-- A run goes in front of what does not start with one. -/
theorem pieces_run_append {xs rest : List α} (hne : xs ≠ []) (hxs : ∀ x ∈ xs, p x = true)
    (hnext : ∀ ys qs, pieces p rest ≠ Piece.run ys :: qs) :
    pieces p (xs ++ rest) = .run xs :: pieces p rest := by
  induction xs with
  | nil => exact absurd rfl hne
  | cons x xs ih =>
    rw [List.cons_append, pieces, if_pos (hxs x List.mem_cons_self)]
    cases xs with
    | nil =>
      show (match pieces p rest with
        | .run ys :: qs => Piece.run (x :: ys) :: qs
        | qs => .run [x] :: qs) = _
      split
      · rename_i hpieces
        exact absurd hpieces (hnext _ _)
      · rfl
    | cons y ys =>
      rw [ih (List.cons_ne_nil _ _) fun z hz => hxs z (List.mem_cons_of_mem _ hz)]

/-- The pieces of a text are the only maximal ones. -/
theorem pieces_text {ps : List (Piece α)} (h : MaximalRuns p ps) :
    pieces p (ps.flatMap Piece.text) = ps := by
  induction h with
  | nil => rfl
  | @one x ps hx h ih =>
    show pieces p (x :: ps.flatMap Piece.text) = _
    rw [pieces, if_neg (Bool.eq_false_iff.mp hx), ih]
  | @run xs ps hne hxs hnext h ih =>
    have hnext' : ∀ ys qs, pieces p (ps.flatMap Piece.text) ≠ Piece.run ys :: qs := by
      rw [ih]
      exact hnext
    rw [List.flatMap_cons, Piece.text, pieces_run_append hne hxs hnext', ih]

theorem MaximalRuns.append {ps qs : List (Piece α)} (hps : MaximalRuns p ps)
    (hqs : MaximalRuns p qs)
    (hnext : ∀ ys rest, qs ≠ .run ys :: rest) : MaximalRuns p (ps ++ qs) := by
  induction hps with
  | nil => exact hqs
  | one hx h ih => exact .one hx ih
  | @run xs ps hne hxs hrun h ih =>
    refine .run hne hxs (fun ys rest heq => ?_) ih
    cases ps with
    | nil => exact hnext ys rest heq
    | cons q ps => exact hrun ys ps (congrArg (· :: ps) (List.cons.inj heq).1)

theorem MaximalRuns.of_mem {ps : List (Piece α)} (h : MaximalRuns p ps) {xs : List α}
    (hxs : Piece.run xs ∈ ps) : xs ≠ [] ∧ ∀ x ∈ xs, p x = true := by
  induction h with
  | nil => cases hxs
  | one hx h ih =>
    cases hxs with
    | tail _ hxs => exact ih hxs
  | run hne hword hnext h ih =>
    cases hxs with
    | head => exact ⟨hne, hword⟩
    | tail _ hxs => exact ih hxs

/-- Put other pieces in the place of every run. -/
def Piece.replace (f : List α → List (Piece α)) : Piece α → List (Piece α)
  | .run xs => f xs
  | .one x  => [.one x]

theorem MaximalRuns.flatMap_replace {f : List α → List (Piece α)} {ps : List (Piece α)}
    (h : MaximalRuns p ps) (hf : ∀ xs, Piece.run xs ∈ ps → MaximalRuns p (f xs)) :
    MaximalRuns p (ps.flatMap (Piece.replace f)) := by
  induction h with
  | nil => exact .nil
  | one hx h ih => exact .one hx (ih fun xs hxs => hf xs (List.mem_cons_of_mem _ hxs))
  | @run xs ps hne hxs hnext h ih =>
    rw [List.flatMap_cons]
    refine (hf xs List.mem_cons_self).append
      (ih fun ys hys => hf ys (List.mem_cons_of_mem _ hys)) ?_
    -- what follows a run is a single character, and stays one
    intro ys rest heq
    cases ps with
    | nil => cases heq
    | cons q ps =>
      cases q with
      | run zs => exact hnext zs ps rfl
      | one x => cases heq

end

/-- How the pieces of a text are read. -/
structure Lexicon (α τ : Type*) where
  blank : α → Bool
  word : List α → Option τ
  single : α → Option τ
  double : α → Option τ

section
variable {α τ : Type*}

/-- The tokens of a cut text. -/
def lex [DecidableEq α] (L : Lexicon α τ) : List (Piece α) → Option (List τ)
  | []             => some []
  | .run xs :: ps  => (L.word xs).bind fun t => (lex L ps).map (t :: ·)
  | .one x :: ps   =>
    if L.blank x then lex L ps
    else
      match L.single x with
      | some t => (lex L ps).map (t :: ·)
      | none   =>
        match ps with
        | .one y :: ps' =>
          if x = y then (L.double x).bind fun t => (lex L ps').map (t :: ·) else none
        | _ => none

/-- `ts` are the tokens of a cut text. -/
inductive Lexes (L : Lexicon α τ) : List (Piece α) → List τ → Prop where
  | nil : Lexes L [] []
  | word {xs : List α} {t : τ} {ps : List (Piece α)} {ts : List τ} (ht : L.word xs = some t)
      (h : Lexes L ps ts) : Lexes L (.run xs :: ps) (t :: ts)
  | blank {x : α} {ps : List (Piece α)} {ts : List τ} (hx : L.blank x = true)
      (h : Lexes L ps ts) : Lexes L (.one x :: ps) ts
  | single {x : α} {t : τ} {ps : List (Piece α)} {ts : List τ} (hx : L.blank x = false)
      (ht : L.single x = some t) (h : Lexes L ps ts) : Lexes L (.one x :: ps) (t :: ts)
  | double {x : α} {t : τ} {ps : List (Piece α)} {ts : List τ} (hx : L.blank x = false)
      (hs : L.single x = none) (ht : L.double x = some t) (h : Lexes L ps ts) :
      Lexes L (.one x :: .one x :: ps) (t :: ts)

variable {L : Lexicon α τ}

theorem Lexes.lex_eq [DecidableEq α] {ps : List (Piece α)} {ts : List τ} (h : Lexes L ps ts) :
    lex L ps = some ts := by
  induction h with
  | nil => rfl
  | word ht h ih => simp only [lex, ht, ih, Option.bind_some, Option.map_some]
  | blank hx h ih =>
    rw [lex.eq_def]
    simp only [hx, ih, if_true]
  | single hx ht h ih =>
    rw [lex.eq_def]
    simp only [hx, ht, ih, Option.map_some, Bool.false_eq_true, if_false]
  | double hx hs ht h ih =>
    rw [lex.eq_def]
    simp only [hx, hs, ht, ih, Option.bind_some, Option.map_some, Bool.false_eq_true,
      if_false, if_true]

theorem Lexes.of_lex [DecidableEq α] {ps : List (Piece α)} : ∀ {ts : List τ}, lex L ps = some ts →
    Lexes L ps ts := by
  fun_induction lex L ps with
  | case1 =>
    intro ts h
    obtain rfl := Option.some.inj h
    exact .nil
  | case2 xs ps ih =>
    intro ts h
    obtain ⟨t, ht, h⟩ := Option.bind_eq_some_iff.mp h
    obtain ⟨ts', hts, rfl⟩ := Option.map_eq_some_iff.mp h
    exact .word ht (ih hts)
  | case3 x ps hx ih => exact fun h => .blank hx (ih h)
  | case4 x ps hx t ht ih =>
    intro ts h
    obtain ⟨ts', hts, rfl⟩ := Option.map_eq_some_iff.mp h
    exact .single (Bool.eq_false_iff.mpr hx) ht (ih hts)
  | case5 x ps' hx hs ih =>
    intro ts h
    obtain ⟨t, ht, h⟩ := Option.bind_eq_some_iff.mp h
    obtain ⟨ts', hts, rfl⟩ := Option.map_eq_some_iff.mp h
    exact .double (Bool.eq_false_iff.mpr hx) hs ht (ih hts)
  | case6 x hx hs y ps' hy => exact fun h => nomatch h
  | case7 x ps hx hs hnext => exact fun h => nomatch h

namespace Lexes

variable {ps qs : List (Piece α)} {ts us : List τ}

theorem append (h : Lexes L ps ts) (h' : Lexes L qs us) : Lexes L (ps ++ qs) (ts ++ us) := by
  induction h with
  | nil => exact h'
  | word ht h ih => exact .word ht ih
  | blank hx h ih => exact .blank hx ih
  | single hx ht h ih => exact .single hx ht ih
  | double hx hs ht h ih => exact .double hx hs ht ih

/-- Every run was read as a word. -/
theorem word_of_mem (h : Lexes L ps ts) {xs : List α} (hxs : Piece.run xs ∈ ps) :
    ∃ t ∈ ts, L.word xs = some t := by
  induction h with
  | nil => cases hxs
  | word ht h ih =>
    cases hxs with
    | head => exact ⟨_, List.mem_cons_self, ht⟩
    | tail _ hxs =>
      obtain ⟨t, ht, hword⟩ := ih hxs
      exact ⟨t, List.mem_cons_of_mem _ ht, hword⟩
  | blank hx h ih =>
    cases hxs with
    | tail _ hxs => exact ih hxs
  | single hx ht h ih =>
    cases hxs with
    | tail _ hxs =>
      obtain ⟨t, ht, hword⟩ := ih hxs
      exact ⟨t, List.mem_cons_of_mem _ ht, hword⟩
  | double hx hs ht h ih =>
    cases hxs with
    | tail _ hxs =>
      cases hxs with
      | tail _ hxs =>
        obtain ⟨t, ht, hword⟩ := ih hxs
        exact ⟨t, List.mem_cons_of_mem _ ht, hword⟩

/-- Every other character was skipped or read as a symbol. -/
theorem one_of_mem (h : Lexes L ps ts) {x : α} (hx : Piece.one x ∈ ps) :
    L.blank x = true ∨ ∃ t ∈ ts, L.single x = some t ∨ L.double x = some t := by
  induction h with
  | nil => cases hx
  | word ht h ih =>
    cases hx with
    | tail _ hx =>
      exact (ih hx).imp_right fun ⟨t, ht, h⟩ => ⟨t, List.mem_cons_of_mem _ ht, h⟩
  | blank hb h ih =>
    cases hx with
    | head => exact Or.inl hb
    | tail _ hx => exact ih hx
  | single hb ht h ih =>
    cases hx with
    | head => exact Or.inr ⟨_, List.mem_cons_self, Or.inl ht⟩
    | tail _ hx =>
      exact (ih hx).imp_right fun ⟨t, ht, h⟩ => ⟨t, List.mem_cons_of_mem _ ht, h⟩
  | double hb hs ht h ih =>
    cases hx with
    | head => exact Or.inr ⟨_, List.mem_cons_self, Or.inr ht⟩
    | tail _ hx =>
      cases hx with
      | head => exact Or.inr ⟨_, List.mem_cons_self, Or.inr ht⟩
      | tail _ hx =>
        exact (ih hx).imp_right fun ⟨t, ht, h⟩ => ⟨t, List.mem_cons_of_mem _ ht, h⟩

/-- A token was read from a run, from a character or from a doubled one. -/
theorem exists_of_mem (h : Lexes L ps ts) {t : τ} (ht : t ∈ ts) :
    (∃ xs, Piece.run xs ∈ ps ∧ L.word xs = some t) ∨
      ∃ x, Piece.one x ∈ ps ∧ L.blank x = false ∧ (L.single x = some t ∨ L.double x = some t) := by
  induction h with
  | nil => cases ht
  | @word xs t' ps ts ht' h ih =>
    cases ht with
    | head => exact Or.inl ⟨xs, List.mem_cons_self, ht'⟩
    | tail _ ht =>
      exact (ih ht).imp (fun ⟨ys, hys, h⟩ => ⟨ys, List.mem_cons_of_mem _ hys, h⟩)
        fun ⟨y, hy, h⟩ => ⟨y, List.mem_cons_of_mem _ hy, h⟩
  | blank hb h ih =>
    exact (ih ht).imp (fun ⟨ys, hys, h⟩ => ⟨ys, List.mem_cons_of_mem _ hys, h⟩)
      fun ⟨y, hy, h⟩ => ⟨y, List.mem_cons_of_mem _ hy, h⟩
  | @single x t' ps ts hb ht' h ih =>
    cases ht with
    | head => exact Or.inr ⟨x, List.mem_cons_self, hb, Or.inl ht'⟩
    | tail _ ht =>
      exact (ih ht).imp (fun ⟨ys, hys, h⟩ => ⟨ys, List.mem_cons_of_mem _ hys, h⟩)
        fun ⟨y, hy, h⟩ => ⟨y, List.mem_cons_of_mem _ hy, h⟩
  | @double x t' ps ts hb hs ht' h ih =>
    cases ht with
    | head => exact Or.inr ⟨x, List.mem_cons_self, hb, Or.inr ht'⟩
    | tail _ ht =>
      exact (ih ht).imp
        (fun ⟨ys, hys, h⟩ => ⟨ys, List.mem_cons_of_mem _ (List.mem_cons_of_mem _ hys), h⟩)
        fun ⟨y, hy, h⟩ => ⟨y, List.mem_cons_of_mem _ (List.mem_cons_of_mem _ hy), h⟩

end Lexes

/-! ### Replacing the words of a text -/

variable {τ' : Type*} {L' : Lexicon α τ'}

/-- Replacing every run by pieces that read as the translation of its token
translates all tokens. -/
theorem Lexes.flatMap_replace {f : List α → List (Piece α)} {translate : τ → List τ'}
    {ps : List (Piece α)} {ts : List τ} (h : Lexes L ps ts)
    (hblank : ∀ x, Piece.one x ∈ ps → L.blank x = true → L'.blank x = true)
    (hword : ∀ xs t, Piece.run xs ∈ ps → L.word xs = some t → Lexes L' (f xs) (translate t))
    (hsingle : ∀ x t, Piece.one x ∈ ps → L.blank x = false → L.single x = some t →
      ∃ t', L'.blank x = false ∧ L'.single x = some t' ∧ translate t = [t'])
    (hdouble : ∀ x t, Piece.one x ∈ ps → L.blank x = false → L.single x = none →
      L.double x = some t → ∃ t', L'.blank x = false ∧ L'.single x = none ∧
        L'.double x = some t' ∧ translate t = [t']) :
    Lexes L' (ps.flatMap (Piece.replace f)) (ts.flatMap translate) := by
  induction h with
  | nil => exact .nil
  | @word xs t ps ts ht h ih =>
    rw [List.flatMap_cons, List.flatMap_cons]
    exact (hword xs t List.mem_cons_self ht).append
      (ih (fun x hx => hblank x (List.mem_cons_of_mem _ hx))
        (fun ys u hys => hword ys u (List.mem_cons_of_mem _ hys))
        (fun x u hx => hsingle x u (List.mem_cons_of_mem _ hx))
        fun x u hx => hdouble x u (List.mem_cons_of_mem _ hx))
  | @blank x ps ts hx h ih =>
    exact .blank (hblank x List.mem_cons_self hx)
      (ih (fun y hy => hblank y (List.mem_cons_of_mem _ hy))
        (fun ys u hys => hword ys u (List.mem_cons_of_mem _ hys))
        (fun y u hy => hsingle y u (List.mem_cons_of_mem _ hy))
        fun y u hy => hdouble y u (List.mem_cons_of_mem _ hy))
  | @single x t ps ts hx ht h ih =>
    obtain ⟨t', hx', ht', heq⟩ := hsingle x t List.mem_cons_self hx ht
    rw [@List.flatMap_cons _ _ _ ts, heq]
    exact .single hx' ht'
      (ih (fun y hy => hblank y (List.mem_cons_of_mem _ hy))
        (fun ys u hys => hword ys u (List.mem_cons_of_mem _ hys))
        (fun y u hy => hsingle y u (List.mem_cons_of_mem _ hy))
        fun y u hy => hdouble y u (List.mem_cons_of_mem _ hy))
  | @double x t ps ts hx hs ht h ih =>
    obtain ⟨t', hx', hs', ht', heq⟩ := hdouble x t List.mem_cons_self hx hs ht
    rw [@List.flatMap_cons _ _ _ ts, heq]
    exact .double hx' hs' ht'
      (ih (fun y hy => hblank y (List.mem_cons_of_mem _ (List.mem_cons_of_mem _ hy)))
        (fun ys u hys => hword ys u (List.mem_cons_of_mem _ (List.mem_cons_of_mem _ hys)))
        (fun y u hy => hsingle y u (List.mem_cons_of_mem _ (List.mem_cons_of_mem _ hy)))
        fun y u hy => hdouble y u (List.mem_cons_of_mem _ (List.mem_cons_of_mem _ hy)))

end

end PolyPlug.Lib
