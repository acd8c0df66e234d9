import Synopsis.Proofs.Json.Faults
import Synopsis.Proofs.Outcome
import Synopsis.Toml.Reader

/-!
# Why a project file is refused

A project file that is refused for a long integer holds a run of as many digits, with underscores
among them, and one that is refused for its depth opens hundreds of lists and tables. Every reader
leaves an end of the text that it was given, and its faults are about this text. Nothing is said
about documents that are malformed.
-/

namespace Synopsis.Toml

open Json (openings isOpening openings_le_of_suffix)

/-- A run of so many digits with underscores among them, too many for a
number, stands in the text. -/
def LongRun (digits : Nat) (cs : List Char) : Prop :=
  ∃ run, run <:+: cs ∧ (∀ c ∈ run, c.isDigit = true ∨ c = '_') ∧
    run.countP Char.isDigit = digits ∧ Decimal.longestNumeral < digits

/-- What a fault says of a text in which lists and tables may take `depth` levels. -/
def Fault.About (depth : Nat) (cs : List Char) : Fault → Prop
  | .malformed => True
  | .longInteger digits => LongRun digits cs
  | .nesting => depth < 3 * openings cs

theorem Fault.About.of_suffix {fault : Fault} {depth : Nat} {cs rest : List Char}
    (h : fault.About depth rest) (sub : rest <:+ cs) : fault.About depth cs := by
  cases fault with
  | malformed => trivial
  | longInteger digits =>
    obtain ⟨run, inside, isRun⟩ := h
    exact ⟨run, inside.trans sub.isInfix, isRun⟩
  | nesting => exact Nat.lt_of_lt_of_le h (Nat.mul_le_mul_left 3 (openings_le_of_suffix sub))

/-- What a reader makes of a text: what it leaves is an end of the text, and
its faults are about the text. -/
structure Sound {α : Type} (left : α → List Char) (depth : Nat) (cs : List Char)
    (result : Except Fault α) : Prop where
  rest : ∀ a, result = .ok a → left a <:+ cs
  about : ∀ fault, result = .error fault → fault.About depth cs

namespace Sound

variable {α β : Type} {left : α → List Char} {left' : β → List Char} {depth : Nat}
  {cs cs' : List Char} {result : Except Fault α}

theorem of_suffix (h : Sound left depth cs' result) (sub : cs' <:+ cs) :
    Sound left depth cs result where
  rest a ha := (h.rest a ha).trans sub
  about fault hfault := (h.about fault hfault).of_suffix sub

theorem ok {a : α} (sub : left a <:+ cs) : Sound left depth cs (.ok a) where
  rest _ h := by cases h; exact sub
  about _ h := by cases h

theorem malformed : Sound left depth cs (.error .malformed) where
  rest _ h := by cases h
  about _ h := by cases h; trivial

theorem error {fault : Fault} (h : Sound left depth cs (.error fault)) :
    Sound left' depth cs (.error fault) where
  rest _ h := by cases h
  about _ hfault := by cases hfault; exact h.about fault rfl

theorem bind {f : α → Except Fault β} (h : Sound left depth cs result)
    (h' : ∀ a, Sound left' depth (left a) (f a)) : Sound left' depth cs (result >>= f) := by
  cases result with
  | ok a => exact (h' a).of_suffix (h.rest a rfl)
  | error fault => exact h.error

theorem map {f : α → β} (h : Sound left depth cs result) (h' : ∀ a, left' (f a) <:+ left a) :
    Sound left' depth cs (result.map f) := by
  cases result with
  | ok a => exact .ok ((h' a).trans (h.rest a rfl))
  | error fault => exact h.error

end Sound

variable (depth : Nat) (cs : List Char)

/-! ## Blanks -/

theorem suffix_skipGap : skipGap cs <:+ cs := List.dropWhile_suffix _

theorem sound_skipComment : Sound id depth cs (skipComment cs) := by
  unfold skipComment
  split
  · split
    · exact .malformed
    · exact .ok ((List.dropWhile_suffix _).trans (List.suffix_cons _ _))
  · exact .ok (List.suffix_refl _)

theorem sound_skipSpace (fuel : Nat) : Sound id depth cs (skipSpace fuel cs) := by
  induction fuel generalizing cs with
  | zero => exact .ok (List.suffix_refl _)
  | succ fuel ih =>
    rw [skipSpace]
    have sub := List.dropWhile_suffix (fun c => isGap c || c == '\n') (l := cs)
    split
    · exact ((sound_skipComment depth _).bind fun rest => ih rest).of_suffix sub
    · exact .ok sub

/-! ## Texts -/

theorem sound_hexChar (width : Nat) : Sound Prod.snd depth cs (hexChar width cs) := by
  unfold hexChar
  dsimp only
  split
  · exact .ok (List.drop_suffix _ _)
  · exact .malformed

theorem sound_escape (multiline : Bool) : Sound Prod.snd depth cs (escape multiline cs) := by
  unfold escape
  extract_lets joined
  have sound_joined (rest : List Char) : Sound Prod.snd depth rest (joined rest) :=
    .ok (List.dropWhile_suffix _)
  split
  · exact .malformed
  · rename_i c rest
    refine Sound.of_suffix ?_ (List.suffix_cons c rest)
    split
    · exact sound_joined rest
    · split
      · have sub := suffix_skipGap rest
        split
        · exact .ok (List.nil_suffix)
        · rename_i h
          rw [h] at sub
          exact (sound_joined _).of_suffix ((List.suffix_cons _ _).trans sub)
        · exact .malformed
      · split
        · exact (sound_hexChar depth rest 4).map fun _ => List.suffix_refl _
        · exact (sound_hexChar depth rest 8).map fun _ => List.suffix_refl _
        all_goals first | exact .ok (List.suffix_refl _) | exact .malformed

theorem sound_basicText (multiline : Bool) (fuel : Nat) (taken : List Char) :
    Sound Prod.snd depth cs (basicText multiline fuel taken cs) := by
  induction fuel generalizing taken cs with
  | zero => exact .malformed
  | succ fuel ih =>
    rw [basicText.eq_def]
    dsimp only
    split
    · exact .malformed
    · rename_i rest
      refine Sound.of_suffix ?_ (List.suffix_cons _ rest)
      split
      · exact .ok (List.suffix_refl _)
      · split
        · exact .ok ((List.suffix_cons _ _).trans (List.suffix_cons _ _))
        · exact ih rest _
    · rename_i rest
      refine Sound.of_suffix ?_ (List.suffix_cons _ rest)
      exact (sound_escape depth rest multiline).bind fun _ => ih _ _
    · rename_i c rest _ _
      refine Sound.of_suffix ?_ (List.suffix_cons c rest)
      split
      · exact .malformed
      · exact ih rest _

theorem sound_literalText : Sound Prod.snd depth cs (literalText cs) := by
  unfold literalText
  dsimp only
  split
  · exact .malformed
  · rename_i h
    have sub := List.dropWhile_suffix (· != '\'') (l := cs)
    rw [h] at sub
    split
    · exact .malformed
    · exact .ok ((List.suffix_cons _ _).trans sub)

theorem sound_literalLines (taken : List Char) :
    Sound Prod.snd depth cs (literalLines taken cs) := by
  fun_induction literalLines taken cs with
  | case1 taken rest =>
    exact .ok (((List.suffix_cons _ _).trans (List.suffix_cons _ _)).trans (List.suffix_cons _ _))
  | case2 => exact .malformed
  | case3 => exact .malformed
  | case4 taken c rest _ _ ih => exact ih.of_suffix (List.suffix_cons c rest)

theorem suffix_withQuotes (quote : Char) (read : String × List Char) :
    (withQuotes quote read).2 <:+ read.2 := by
  unfold withQuotes
  split
  · split
    · split
      · exact (List.suffix_cons _ _).trans (List.suffix_cons _ _)
      · exact List.suffix_cons _ _
    · exact List.suffix_refl _
  · split
    · exact List.nil_suffix
    · exact List.suffix_refl _
  · exact List.suffix_refl _

theorem suffix_dropNewline : dropNewline cs <:+ cs := by
  unfold dropNewline
  split
  · exact List.suffix_cons _ _
  · exact List.suffix_refl _

theorem suffix_three {α : Type} (a b c : α) (rest : List α) : rest <:+ a :: b :: c :: rest :=
  ⟨[a, b, c], rfl⟩

theorem sound_textValue : Sound Prod.snd depth cs (textValue cs) := by
  unfold textValue
  split
  · rename_i rest
    have body := sound_basicText depth (dropNewline rest) true (rest.length + 1) []
    exact ((body.map (suffix_withQuotes '"')).of_suffix (suffix_dropNewline rest)).of_suffix
      (suffix_three _ _ _ rest)
  · exact (sound_basicText depth _ _ _ _).of_suffix (List.suffix_cons _ _)
  · rename_i rest
    have body := sound_literalLines depth (dropNewline rest) []
    exact ((body.map (suffix_withQuotes '\'')).of_suffix (suffix_dropNewline rest)).of_suffix
      (suffix_three _ _ _ rest)
  · exact (sound_literalText depth _).of_suffix (List.suffix_cons _ _)
  · exact .malformed

/-! ## Names -/

theorem sound_keyPart : Sound Prod.snd depth cs (keyPart cs) := by
  unfold keyPart
  split
  · exact (sound_basicText depth _ _ _ _).of_suffix (List.suffix_cons _ _)
  · exact (sound_literalText depth _).of_suffix (List.suffix_cons _ _)
  · dsimp only
    split
    · exact .malformed
    · exact .ok (List.dropWhile_suffix _)

theorem sound_keyRest (fuel : Nat) : Sound Prod.snd depth cs (keyRest fuel cs) := by
  induction fuel generalizing cs with
  | zero => exact .ok (List.suffix_refl _)
  | succ fuel ih =>
    rw [keyRest]
    have sub := suffix_skipGap cs
    split
    · rename_i rest h
      rw [h] at sub
      have part := (sound_keyPart depth (skipGap rest)).of_suffix (suffix_skipGap rest)
      refine Sound.of_suffix (part.bind fun (part, left) => ?_) ((List.suffix_cons _ _).trans sub)
      exact (ih left).bind fun _ => .ok (List.suffix_refl _)
    · exact .ok sub

theorem sound_key : Sound Prod.snd depth cs (key cs) :=
  (sound_keyPart depth cs).bind fun (_, rest) =>
    (sound_keyRest depth rest _).bind fun _ => .ok (List.suffix_refl _)

/-! ## Numbers, dates and times -/

variable {depth cs}

theorem suffix_fixed? {width least most n : Nat} {rest : List Char}
    (h : fixed? width least most cs = some (n, rest)) : rest <:+ cs := by
  unfold fixed? at h
  dsimp only at h
  split at h
  · cases h
    exact List.drop_suffix _ _
  · cases h

theorem suffix_expect? {c : Char} {rest : List Char} (h : expect? c cs = some rest) :
    rest <:+ cs := by
  unfold expect? at h
  split at h
  · split at h
    · cases h
      exact List.suffix_cons _ _
    · cases h
  · cases h

theorem suffix_clock? {clock : Clock} {rest : List Char} (h : clock? cs = some (clock, rest)) :
    rest <:+ cs := by
  simp only [clock?, Option.bind_eq_bind, Option.bind_eq_some_iff, Prod.exists] at h
  obtain ⟨_, _, hour, _, colon, _, _, minute, _, colon', _, _, second, h⟩ := h
  have sub := (suffix_fixed? second).trans ((suffix_expect? colon').trans
    ((suffix_fixed? minute).trans ((suffix_expect? colon).trans (suffix_fixed? hour))))
  split at h
  · split at h
    · cases h
      exact sub
    · cases h
      exact (List.drop_suffix _ _).trans ((List.suffix_cons _ _).trans sub)
  · cases h
    exact sub

theorem suffix_offset : (offset cs).2 <:+ cs := by
  unfold offset
  extract_lets signed
  have sub {sign n : Int} {rest after : List Char} (h : signed sign rest = some (n, after)) :
      after <:+ rest := by
    simp only [signed, Option.bind_eq_bind, Option.bind_eq_some_iff, Prod.exists] at h
    obtain ⟨_, _, hours, _, colon, _, _, minutes, h⟩ := h
    cases h
    exact (suffix_fixed? minutes).trans ((suffix_expect? colon).trans (suffix_fixed? hours))
  split
  · exact List.suffix_cons _ _
  · exact List.suffix_cons _ _
  · split
    · rename_i h
      exact (sub h).trans (List.suffix_cons _ _)
    · exact List.suffix_refl _
  · split
    · rename_i h
      exact (sub h).trans (List.suffix_cons _ _)
    · exact List.suffix_refl _
  · exact List.suffix_refl _

theorem suffix_day? {day : Day} {rest : List Char} (h : day? cs = some (day, rest)) :
    rest <:+ cs := by
  simp only [day?, Option.bind_eq_bind, Option.bind_eq_some_iff, Prod.exists] at h
  obtain ⟨_, _, year, _, hyphen, _, _, month, _, hyphen', _, _, days, h⟩ := h
  cases h
  exact (suffix_fixed? days).trans ((suffix_expect? hyphen').trans
    ((suffix_fixed? month).trans ((suffix_expect? hyphen).trans (suffix_fixed? year))))

theorem sound_moment? {step : Except Fault (Moment × List Char)} (h : moment? cs = some step) :
    Sound Prod.snd depth cs step := by
  unfold moment? at h
  split at h
  · rename_i day rest found
    have sub := suffix_day? found
    split at h
    · cases h
      exact .malformed
    · extract_lets timed at h
      have inside {clock : Clock} {after : List Char} (timely : timed = some (clock, after)) :
          after <:+ rest := by
        unfold timed at timely
        split at timely
        · split at timely
          · exact (suffix_clock? timely).trans (List.suffix_cons _ _)
          · cases timely
        · cases timely
      cases timely : timed with
      | some found =>
        simp only [timely, Option.some.injEq] at h
        subst h
        exact .ok (suffix_offset.trans ((inside timely).trans sub))
      | none =>
        simp only [timely, Option.some.injEq] at h
        subst h
        exact .ok sub
  · obtain ⟨⟨clock, rest⟩, found, rfl⟩ := Option.map_eq_some_iff.mp h
    exact .ok (suffix_clock? found)

/-- A text begins with digits among which there may be underscores, and then comes the rest. -/
def BeginsWith (p : Char → Bool) (digits rest cs : List Char) : Prop :=
  ∃ run, run ++ rest = cs ∧ (∀ c ∈ run, p c = true ∨ c = '_') ∧ run.countP p = digits.length

theorem BeginsWith.suffix {p : Char → Bool} {digits rest : List Char}
    (h : BeginsWith p digits rest cs) : rest <:+ cs := by
  obtain ⟨run, rfl, -⟩ := h
  exact List.suffix_append run rest

theorem beginsWith_grouped {p : Char → Bool} (plain : p '_' = false) (cs : List Char) :
    BeginsWith p (grouped p cs).1 (grouped p cs).2 cs := by
  fun_induction grouped p cs with
  | case1 c d rest hc hd ds rest' h ih =>
    rw [h] at ih
    obtain ⟨run, whole, isRun, count⟩ := ih
    refine ⟨c :: '_' :: run, by rw [List.cons_append, List.cons_append, whole], ?_, ?_⟩
    · exact List.forall_mem_cons.mpr ⟨Or.inl hc, List.forall_mem_cons.mpr ⟨Or.inr rfl, isRun⟩⟩
    · rw [List.countP_cons_of_pos hc, List.countP_cons_of_neg (by simp [plain]), count]
      rfl
  | case2 c d rest hc hd =>
    exact ⟨[c], rfl, by simp [hc], by simp [hc]⟩
  | case3 c d rest hc => exact ⟨[], rfl, by simp, rfl⟩
  | case4 c rest other hc ds rest' h ih =>
    rw [h] at ih
    obtain ⟨run, whole, isRun, count⟩ := ih
    refine ⟨c :: run, by rw [List.cons_append, whole], ?_, ?_⟩
    · exact List.forall_mem_cons.mpr ⟨Or.inl hc, isRun⟩
    · rw [List.countP_cons_of_pos hc, count]
      rfl
  | case5 c rest other hc => exact ⟨[], rfl, by simp, rfl⟩
  | case6 => exact ⟨[], rfl, by simp, rfl⟩

theorem suffix_basedInt? {base : Nat} {n : Int} {rest : List Char}
    (h : basedInt? base cs = some (n, rest)) : rest <:+ cs := by
  unfold basedInt? at h
  extract_lets isDigit at h
  have sub := (beginsWith_grouped (p := isDigit) rfl cs).suffix
  split at h
  rename_i ds after found
  rw [found] at sub
  split at h <;> cases h
  exact sub

theorem suffix_afterMark (cs : List Char) : (afterMark cs).2 <:+ cs :=
  (beginsWith_grouped (p := Char.isDigit) rfl cs).suffix

theorem suffix_takeSign (cs : List Char) : (Decimal.takeSign cs).2 <:+ cs := by
  unfold Decimal.takeSign
  split
  · exact List.suffix_cons _ _
  · exact List.suffix_cons _ _
  · exact List.suffix_refl _

theorem sound_decimal {negative : Bool} {step : Except Fault (Datum × List Char)}
    (h : decimal negative cs = some step) : Sound Prod.snd depth cs step := by
  unfold decimal at h
  split at h
  rename_i whole rest found
  have begins : BeginsWith Char.isDigit whole rest cs := by
    split at found
    · cases found
      exact ⟨['0'], rfl, by simp, rfl⟩
    · have begins := beginsWith_grouped (p := Char.isDigit) rfl cs
      rwa [found] at begins
  split at h
  · cases h
  · split at h
    rename_i fraction pointed fractional
    have sub : pointed <:+ rest := by
      split at fractional
      · split at fractional
        rename_i more _ ds after marked
        have read := suffix_afterMark more
        rw [marked] at read
        split at fractional <;> cases fractional
        · exact List.suffix_refl _
        · exact read.trans (List.suffix_cons _ _)
      · cases fractional
        exact List.suffix_refl _
    split at h
    rename_i exponent last exponential
    have sub' : last <:+ pointed := by
      split at exponential
      · split at exponential
        · split at exponential
          rename_i more _ _ minus digits signed
          have unsigned := suffix_takeSign more
          rw [signed] at unsigned
          split at exponential
          rename_i ds after marked
          have read := suffix_afterMark digits
          rw [marked] at read
          dsimp only at exponential
          split at exponential <;> cases exponential
          · exact List.suffix_refl _
          · exact (read.trans unsigned).trans (List.suffix_cons _ _)
        · cases exponential
          exact List.suffix_refl _
      · cases exponential
        exact List.suffix_refl _
    dsimp only at h
    have left := sub'.trans (sub.trans begins.suffix)
    split at h
    · split at h
      · rename_i long
        cases h
        obtain ⟨run, whole, isRun, count⟩ := begins
        refine ⟨nofun, ?_⟩
        rintro _ ⟨⟩
        exact ⟨run, whole ▸ (List.prefix_append run rest).isInfix, isRun, count, long⟩
      · cases h
        exact .ok left
    · cases h
      exact .ok left

theorem sound_number? {step : Except Fault (Datum × List Char)} (h : number? cs = some step) :
    Sound Prod.snd depth cs step := by
  unfold number? at h
  extract_lets based special at h
  have sound_based {base : Nat} {rest : List Char} (sub : rest <:+ cs)
      (h : based base rest = some step) : Sound Prod.snd depth cs step := by
    unfold based at h
    split at h
    · rename_i found
      cases h
      exact .ok ((suffix_basedInt? found).trans sub)
    · exact sound_decimal h
  have sound_special {negative : Bool} {rest : List Char} (sub : rest <:+ cs)
      (h : special negative rest = some step) : Sound Prod.snd depth cs step := by
    unfold special at h
    dsimp only at h
    split at h
    · cases h
      exact .ok ((suffix_three _ _ _ _).trans sub)
    · cases h
      exact .ok ((suffix_three _ _ _ _).trans sub)
    · cases h
  split at h
  · exact sound_based ((List.suffix_cons _ _).trans (List.suffix_cons _ _)) h
  · exact sound_based ((List.suffix_cons _ _).trans (List.suffix_cons _ _)) h
  · exact sound_based ((List.suffix_cons _ _).trans (List.suffix_cons _ _)) h
  · have sub := suffix_takeSign cs
    rcases Option.or_eq_some_iff.mp h with h | ⟨-, h⟩
    · exact (sound_decimal h).of_suffix sub
    · exact sound_special sub h

/-! ## Values -/

theorem sound_expectChar (depth : Nat) (c : Char) (cs : List Char) :
    Sound id depth cs (expectChar c cs) := by
  unfold expectChar
  split
  · rename_i found
    exact .ok (suffix_expect? found)
  · exact .malformed

theorem sound_scalar (depth : Nat) (cs : List Char) : Sound Prod.snd depth cs (scalar cs) := by
  unfold scalar
  split
  · exact (sound_textValue depth _).map fun _ => List.suffix_refl _
  · exact (sound_textValue depth _).map fun _ => List.suffix_refl _
  · exact .ok ⟨['t', 'r', 'u', 'e'], rfl⟩
  · exact .ok ⟨['f', 'a', 'l', 's', 'e'], rfl⟩
  · split
    · rename_i found
      exact (sound_moment? found).map fun _ => List.suffix_refl _
    · cases found : number? cs with
      | some step => exact sound_number? found
      | none => exact .malformed

section

variable {item : List Char → Except Fault (Datum × List Char)}

theorem sound_items (sound : ∀ cs, Sound Prod.snd depth cs (item cs)) (fuel : Nat)
    (taken : List Datum) (cs : List Char) : Sound Prod.snd depth cs (items item fuel taken cs) := by
  induction fuel generalizing taken cs with
  | zero => exact .malformed
  | succ fuel ih =>
    rw [items]
    refine (sound cs).bind fun (found, rest) => ?_
    refine (sound_skipSpace depth rest _).bind fun rest => ?_
    dsimp only [id]
    split
    · exact .ok (List.suffix_cons _ _)
    · rename_i rest
      refine Sound.of_suffix ?_ (List.suffix_cons _ rest)
      refine (sound_skipSpace depth rest _).bind fun rest => ?_
      dsimp only [id]
      split
      · exact .ok (List.suffix_cons _ _)
      · exact ih _ _
    · exact .malformed

theorem sound_fields (sound : ∀ cs, Sound Prod.snd depth cs (item cs)) (fuel : Nat)
    (frozen : List Key) (taken : Table Datum) (cs : List Char) :
    Sound Prod.snd depth cs (fields item fuel frozen taken cs) := by
  induction fuel generalizing frozen taken cs with
  | zero => exact .malformed
  | succ fuel ih =>
    rw [fields]
    refine (sound_key depth cs).bind fun (name, rest) => ?_
    refine (sound_expectChar depth '=' rest).bind fun rest => ?_
    refine Sound.of_suffix ?_ (suffix_skipGap rest)
    refine (sound (skipGap rest)).bind fun (found, rest) => ?_
    dsimp only
    split
    · exact .malformed
    · split
      · exact .malformed
      · have sub := suffix_skipGap rest
        split
        · rename_i h
          rw [h] at sub
          exact .ok ((List.suffix_cons _ _).trans sub)
        · rename_i after h
          rw [h] at sub
          have next := (suffix_skipGap after).trans ((List.suffix_cons _ _).trans sub)
          exact (ih _ _ _).of_suffix next
        · exact .malformed

end

/-- A list or table that opens here takes three levels at most, so its fault tells as much of the
text with the bracket. -/
theorem Sound.nested {α : Type} {left : α → List Char} {depth more : Nat} {bracket : Char}
    {rest : List Char} {result : Except Fault α} (h : Sound left depth rest result)
    (opens : isOpening bracket = true) (few : more ≤ 3) :
    Sound left (depth + more) (bracket :: rest) result where
  rest a ha := (h.rest a ha).trans (List.suffix_cons bracket rest)
  about fault hfault := by
    have below := h.about fault hfault
    cases fault with
    | malformed => trivial
    | longInteger digits => exact below.of_suffix (List.suffix_cons bracket rest)
    | nesting =>
      have count : openings (bracket :: rest) = openings rest + 1 := List.countP_cons_of_pos opens
      change depth < 3 * openings rest at below
      change depth + more < 3 * openings (bracket :: rest)
      omega

theorem Sound.nesting {α : Type} {left : α → List Char} {depth : Nat} {bracket : Char}
    {rest : List Char} (opens : isOpening bracket = true) (few : depth < 3) :
    Sound left depth (bracket :: rest) (.error .nesting : Except Fault α) where
  rest _ h := by cases h
  about _ h := by
    cases h
    have count : openings (bracket :: rest) = openings rest + 1 := List.countP_cons_of_pos opens
    change depth < 3 * openings (bracket :: rest)
    omega

theorem sound_value (depth : Nat) (cs : List Char) : Sound Prod.snd depth cs (value depth cs) := by
  induction depth using Nat.strongRecOn generalizing cs with
  | ind depth ih =>
    unfold value
    split
    · rename_i rest
      split
      · rename_i depth
        have opens : isOpening '[' = true := rfl
        refine Sound.nested ?_ opens (by decide : 2 ≤ 3)
        refine (sound_skipSpace depth rest _).bind fun rest => ?_
        dsimp only [id]
        split
        · exact .ok (List.suffix_cons _ _)
        · exact sound_items (ih depth (by omega)) _ _ _
      · rename_i few
        exact .nesting (by decide) (Nat.lt_of_not_le fun _ => few (depth - 2) (by omega))
    · rename_i rest
      split
      · rename_i depth
        refine Sound.nested ?_ (by decide) (Nat.le_refl 3)
        have sub := suffix_skipGap rest
        split
        · rename_i h
          rw [h] at sub
          exact .ok ((List.suffix_cons _ _).trans sub)
        · exact (sound_fields (ih depth (by omega)) _ _ _ _).of_suffix sub
      · rename_i few
        exact .nesting (by decide) (Nat.lt_of_not_le fun _ => few (depth - 3) (by omega))
    · exact sound_scalar depth cs

/-! ## Documents -/

/-- A result that takes nothing of the text. -/
theorem sound_openTable (depth : Nat) (cs : List Char) (name : Key) (d : Draft) :
    Sound (fun _ => cs) depth cs (d.openTable name) := by
  unfold Draft.openTable
  split
  · exact .malformed
  · split
    · exact .malformed
    · exact .ok (List.suffix_refl cs)

theorem sound_openItem (depth : Nat) (cs : List Char) (name : Key) (d : Draft) :
    Sound (fun _ => cs) depth cs (d.openItem name) := by
  unfold Draft.openItem
  split
  · exact .malformed
  · dsimp only
    split
    · exact .malformed
    · exact .ok (List.suffix_refl cs)

theorem sound_assign (depth : Nat) (cs : List Char) (name : Key) (item : Datum) (d : Draft) :
    Sound (fun _ => cs) depth cs (d.assign name item) := by
  unfold Draft.assign
  dsimp only
  split
  · exact .malformed
  · split
    · exact .malformed
    · exact .ok (List.suffix_refl cs)

theorem sound_statement (d : Draft) (cs : List Char) :
    Sound Prod.snd depthLimit cs (statement d cs) := by
  unfold statement
  split
  · rename_i rest
    refine Sound.of_suffix ?_ ((List.suffix_cons _ rest).trans (List.suffix_cons _ _))
    refine Sound.of_suffix ?_ (suffix_skipGap rest)
    refine (sound_key depthLimit _).bind fun (name, rest) => ?_
    refine (sound_openItem depthLimit rest name _).bind fun d => ?_
    split
    · exact .ok ((List.suffix_cons _ _).trans (List.suffix_cons _ _))
    · exact .malformed
  · rename_i rest _
    refine Sound.of_suffix ?_ (List.suffix_cons _ rest)
    refine Sound.of_suffix ?_ (suffix_skipGap rest)
    refine (sound_key depthLimit _).bind fun (name, rest) => ?_
    refine (sound_openTable depthLimit rest name _).bind fun d => ?_
    split
    · exact .ok (List.suffix_cons _ _)
    · exact .malformed
  · exact .ok (List.suffix_refl _)
  · refine (sound_key depthLimit _).bind fun (name, rest) => ?_
    refine (sound_expectChar depthLimit '=' rest).bind fun rest => ?_
    refine Sound.of_suffix ?_ (suffix_skipGap rest)
    refine (sound_value depthLimit _).bind fun (item, rest) => ?_
    exact (sound_assign depthLimit rest name item d).bind fun _ => .ok (List.suffix_refl rest)

theorem about_statements (fuel : Nat) (d : Draft) (cs : List Char) {fault : Fault}
    (h : statements fuel d cs = .error fault) : fault.About depthLimit cs := by
  suffices sound : Sound (fun _ => []) depthLimit cs (statements fuel d cs) from
    sound.about fault h
  clear h
  induction fuel generalizing d cs with
  | zero => exact .ok List.nil_suffix
  | succ fuel ih =>
    rw [statements]
    have sub := suffix_skipGap cs
    split
    · exact .ok List.nil_suffix
    · rename_i h
      rw [h] at sub
      exact (ih _ _).of_suffix ((List.suffix_cons _ _).trans sub)
    · refine Sound.of_suffix ?_ sub
      refine (sound_statement d _).bind fun (d, rest) => ?_
      refine Sound.of_suffix ?_ (suffix_skipGap rest)
      refine (sound_skipComment depthLimit _).bind fun rest => ?_
      dsimp only [id]
      split
      · exact .ok List.nil_suffix
      · exact (ih _ _).of_suffix (List.suffix_cons _ _)
      · exact .malformed

/-- A document that is refused, but not as malformed, holds a run of as many digits or opens
hundreds of lists and tables. -/
theorem about_parse {text : String} {fault : Fault} (h : parse text = .error fault) :
    fault.About depthLimit text.toList := by
  unfold parse at h
  dsimp only at h
  rcases bind_eq_error.mp h with h | ⟨_, _, h⟩
  · exact about_statements _ _ _ h
  · cases h

/-! ## Long numerals -/

theorem grouped_of_digits {cs : List Char} (digits : ∀ c ∈ cs, c.isDigit = true) :
    grouped Char.isDigit cs = (cs, []) := by
  fun_induction grouped Char.isDigit cs with
  | case1 | case2 | case3 => exact absurd (digits '_' (by simp)) (by decide)
  | case4 c rest other hc ds rest' h ih =>
    cases h.symm.trans (ih fun d hd => digits d (List.mem_cons_of_mem c hd))
    rfl
  | case5 c rest other hc => exact absurd (digits c List.mem_cons_self) hc
  | case6 => rfl

theorem expect?_of_digits {c : Char} {cs : List Char} (digits : ∀ d ∈ cs, d.isDigit = true)
    (other : c.isDigit = false) : expect? c cs = none := by
  unfold expect?
  split
  · rename_i d rest
    have isDigit := digits d List.mem_cons_self
    rw [if_neg fun same => by rw [beq_iff_eq.mp same, isDigit] at other; cases other]
  · rfl

theorem digits_of_fixed? {width least most n : Nat} {cs rest : List Char}
    (digits : ∀ d ∈ cs, d.isDigit = true) (h : fixed? width least most cs = some (n, rest)) :
    ∀ d ∈ rest, d.isDigit = true :=
  fun d hd => digits d ((suffix_fixed? h).subset hd)

/-- Digits alone are no day and no time. -/
theorem moment?_of_digits {cs : List Char} (digits : ∀ d ∈ cs, d.isDigit = true) :
    moment? cs = none := by
  have noDay : day? cs = none := by
    unfold day?
    cases h : fixed? 4 0 9999 cs with
    | none => rfl
    | some year =>
      have noHyphen := expect?_of_digits (c := '-') (digits_of_fixed? digits h) (by decide)
      simp [noHyphen]
  have noClock : clock? cs = none := by
    unfold clock?
    cases h : fixed? 2 0 23 cs with
    | none => rfl
    | some hour =>
      have noColon := expect?_of_digits (c := ':') (digits_of_fixed? digits h) (by decide)
      simp [noColon]
  rw [moment?, noDay, noClock]
  rfl

variable {rest : List Char}

theorem value_of_digits (digits : ∀ c ∈ rest, c.isDigit = true)
    (long : Decimal.longestNumeral < rest.length + 1) (depth : Nat) :
    value depth ('1' :: rest) = .error (.longInteger (rest.length + 1)) := by
  have all : ∀ c ∈ '1' :: rest, c.isDigit = true := List.forall_mem_cons.mpr ⟨by decide, digits⟩
  have refused : decimal false ('1' :: rest) = some (.error (.longInteger (rest.length + 1))) := by
    simp [decimal, grouped_of_digits all, long]
  have isDecimal : number? ('1' :: rest) = (decimal false ('1' :: rest)).or none := rfl
  have isNumber : scalar ('1' :: rest) = (number? ('1' :: rest)).getD (.error .malformed) := by
    rw [scalar, moment?_of_digits all]
    -- a one begins neither a text nor a word
    all_goals
      intro _ h
      exact absurd (List.cons.inj h).1 (by decide)
  have isScalar : value depth ('1' :: rest) = scalar ('1' :: rest) := by
    rw [value.eq_def]
    rfl
  rw [isScalar, isNumber, isDecimal, refused]
  rfl

/-- A document of a name and nothing but too many digits, the first of them a one, is refused for
them. -/
theorem parse_of_digits (digits : ∀ c ∈ rest, c.isDigit = true)
    (long : Decimal.longestNumeral < rest.length + 1) :
    parse (String.ofList ('a' :: '=' :: '1' :: rest)) =
      .error (.longInteger (rest.length + 1)) := by
  have named : key ('a' :: '=' :: '1' :: rest) = .ok (["a"], '=' :: '1' :: rest) := rfl
  have assigned : expectChar '=' ('=' :: '1' :: rest) = .ok ('1' :: rest) := rfl
  have refused : statement {} ('a' :: '=' :: '1' :: rest) =
      .error (.longInteger (rest.length + 1)) := by
    refine bind_eq_error.mpr (Or.inr ⟨_, named, bind_eq_error.mpr (Or.inr ⟨_, assigned, ?_⟩)⟩)
    exact bind_eq_error.mpr (Or.inl (value_of_digits digits long depthLimit))
  have first (fuel : Nat) : statements (fuel + 1) {} ('a' :: '=' :: '1' :: rest) =
      .error (.longInteger (rest.length + 1)) := bind_eq_error.mpr (Or.inl refused)
  rw [parse, String.toList_ofList]
  exact bind_eq_error.mpr (Or.inl (first _))

end Synopsis.Toml
