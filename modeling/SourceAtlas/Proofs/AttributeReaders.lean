import SourceAtlas.CSharp.Documentation
import SourceAtlas.Proofs.ParameterLists

/-!
# Attributes read character by character

The attributes of a line are cut out in two passes: square brackets are matched to find
the groups, and each group is split at its commas.  How many attributes there are can be
told in one pass by a reader that knows the open square brackets, the depth at which commas
are judged, and whether something has been written since the last comma.

Both passes run over the text itself and know nothing of literals.  So what stands between
the quotes of an argument is passed over only if it leaves the reader as it was.  Whatever
else stands there makes a difference for some rest of the line.
-/

namespace SourceAtlas.CSharp

open Text

/-- Where the reading of bracketed groups has come to. -/
inductive AttributeReader where
  /-- No group is open, and so many attributes have been read. -/
  | between (count : Nat)
  /-- A group is open: its open square brackets, the depth at which commas are judged,
  whether an attribute has begun, and how many have been read before it. -/
  | within (squares depth : Int) (begun : Bool) (count : Nat)
  /-- Something else than a group has been met. -/
  | failed
  deriving DecidableEq

/-- What a character adds to the open square brackets. -/
def squareStep (c : Char) : Int :=
  if c = '[' then 1 else if c = ']' then -1 else 0

namespace AttributeReader

def step : AttributeReader → Char → AttributeReader
  | between count, c =>
      if isBlank c then between count
      else if c = '[' then within 1 0 false count
      else failed
  | within squares depth begun count, c =>
      if c = ']' ∧ squares ≤ 1 then between (count + begun.toNat)
      else if c = ',' ∧ depth ≤ 0 then within squares depth false (count + begun.toNat)
      else within (squares + squareStep c) (depth + bracketStep c) (begun || !isBlank c) count
  | failed, _ => failed

/-- How many attributes have been read, if the text ends here. -/
def result : AttributeReader → Option Nat
  | between count => some count
  | _ => none

/-- What the reader comes to along a text. -/
def run (reader : AttributeReader) (text : List Char) : AttributeReader :=
  text.foldl step reader

variable {squares depth : Int} {count : Nat} {c : Char} {text : List Char}

@[simp] theorem run_nil (reader : AttributeReader) : reader.run [] = reader := rfl

@[simp] theorem run_cons (reader : AttributeReader) (c : Char) (text : List Char) :
    reader.run (c :: text) = (reader.step c).run text := rfl

@[simp] theorem run_append (reader : AttributeReader) (first second : List Char) :
    reader.run (first ++ second) = (reader.run first).run second :=
  List.foldl_append

@[simp] theorem run_failed (text : List Char) : failed.run text = failed := by
  induction text with
  | nil => rfl
  | cons c text ih => exact ih

theorem ne_of_isBlank (hc : isBlank c = true) {d : Char} (hd : isBlank d = false) : c ≠ d := by
  rintro rfl
  rw [hc] at hd
  contradiction

/-- White space leaves the reader as it is. -/
theorem step_of_isBlank (hc : isBlank c = true) (reader : AttributeReader) :
    reader.step c = reader := by
  cases reader with
  | between count => simp [step, hc]
  | within squares depth begun count =>
      have hopen : opensBracket c = false := by
        simp [opensBracket, ne_of_isBlank hc (d := '<') (by decide),
          ne_of_isBlank hc (d := '(') (by decide), ne_of_isBlank hc (d := '[') (by decide),
          ne_of_isBlank hc (d := '{') (by decide)]
      have hclose : closesBracket c = false := by
        simp [closesBracket, ne_of_isBlank hc (d := '>') (by decide),
          ne_of_isBlank hc (d := ')') (by decide), ne_of_isBlank hc (d := ']') (by decide),
          ne_of_isBlank hc (d := '}') (by decide)]
      simp [step, squareStep, bracketStep, hopen, hclose, hc,
        ne_of_isBlank hc (d := '[') (by decide), ne_of_isBlank hc (d := ']') (by decide),
        ne_of_isBlank hc (d := ',') (by decide)]
  | failed => rfl

theorem run_of_isBlank (htext : ∀ c ∈ text, isBlank c = true) (reader : AttributeReader) :
    reader.run text = reader := by
  induction text with
  | nil => rfl
  | cons c text ih =>
      obtain ⟨hc, htext⟩ := List.forall_mem_cons.mp htext
      rw [run_cons, step_of_isBlank hc, ih htext]

theorem run_trimStart (reader : AttributeReader) (text : List Char) :
    reader.run (trimStart text) = reader.run text := by
  obtain ⟨front, hfront, htext⟩ := exists_blanks_trimStart text
  conv => rhs; rw [htext]
  rw [run_append, run_of_isBlank hfront]

theorem run_trim (reader : AttributeReader) (text : List Char) :
    reader.run (trim text) = reader.run text := by
  obtain ⟨behind, hbehind, htext⟩ := exists_blanks_trimEnd (trimStart text)
  rw [← run_trimStart reader text, htext, run_append, run_of_isBlank hbehind, trim]

theorem step_within_closer (hsquares : squares ≤ 1) (depth : Int) (begun : Bool) (count : Nat) :
    (within squares depth begun count).step ']' = between (count + begun.toNat) := by
  simp [step, hsquares]

theorem step_within_comma (hdepth : depth ≤ 0) (squares : Int) (begun : Bool) (count : Nat) :
    (within squares depth begun count).step ',' =
      within squares depth false (count + begun.toNat) := by
  simp [step, hdepth]

theorem step_within (hcloser : ¬(c = ']' ∧ squares ≤ 1)) (hcomma : ¬(c = ',' ∧ depth ≤ 0))
    (begun : Bool) (count : Nat) :
    (within squares depth begun count).step c =
      within (squares + squareStep c) (depth + bracketStep c) (begun || !isBlank c) count := by
  rw [step, if_neg hcloser, if_neg hcomma]

theorem squareStep_of_bracketStep (hbracket : bracketStep c = 0) : squareStep c = 0 := by
  have hopen : c ≠ '[' := by
    rintro rfl
    revert hbracket
    decide
  have hclose : c ≠ ']' := by
    rintro rfl
    revert hbracket
    decide
  rw [squareStep, if_neg hopen, if_neg hclose]

/-- Neither a comma nor a square bracket, a character is written into an attribute. -/
theorem step_within_plain (hsquare : squareStep c = 0) (hcomma : c ≠ ',') (squares depth : Int)
    (begun : Bool) (count : Nat) :
    (within squares depth begun count).step c =
      within squares (depth + bracketStep c) (begun || !isBlank c) count := by
  have hclose : c ≠ ']' := by
    rintro rfl
    revert hsquare
    decide
  rw [step_within (fun hc => hclose hc.1) (fun hc => hcomma hc.1), hsquare, Int.add_zero]

/-- A sign that is no bracket and no comma, as quotation marks are. -/
structure IsSign (c : Char) : Prop where
  bracket : bracketStep c = 0
  comma : c ≠ ','
  solid : isBlank c = false

theorem IsSign.step_within (hsign : IsSign c) (squares depth : Int) (begun : Bool) (count : Nat) :
    (within squares depth begun count).step c = within squares depth true count := by
  rw [step_within_plain (squareStep_of_bracketStep hsign.bracket) hsign.comma, hsign.bracket,
    hsign.solid, Int.add_zero, Bool.not_false, Bool.or_true]

theorem IsSign.step_between (hsign : IsSign c) (count : Nat) :
    (between count).step c = failed := by
  have hopen : c ≠ '[' := by
    rintro rfl
    have hbracket := hsign.bracket
    revert hbracket
    decide
  simp [step, hsign.solid, hopen]

theorem closerLoop_square {squares : Nat} (hsquares : 1 ≤ squares) (offset : Nat) {c : Char}
    (hc : ¬(c = ']' ∧ squares ≤ 1)) (text : List Char) :
    ∃ next : Nat, 1 ≤ next ∧ (next : Int) = squares + squareStep c ∧
      closerLoop '[' ']' squares offset (c :: text) =
        closerLoop '[' ']' next (offset + c.utf8Size) text := by
  unfold squareStep
  by_cases hopen : c = '['
  · exact ⟨squares + 1, by omega, by rw [if_pos hopen]; rfl, by rw [closerLoop, if_pos hopen]⟩
  · by_cases hclose : c = ']'
    · have hmany : ¬squares ≤ 1 := fun hle => hc ⟨hclose, hle⟩
      refine ⟨squares - 1, by omega, by rw [if_neg hopen, if_pos hclose]; omega, ?_⟩
      rw [closerLoop, if_neg hopen, if_pos hclose, if_neg hmany]
    · refine ⟨squares, hsquares, by rw [if_neg hopen, if_neg hclose]; omega, ?_⟩
      rw [closerLoop, if_neg hopen, if_neg hclose]

/-- A text that more is written in than white space. -/
def isSolid (text : List Char) : Bool :=
  text.any (!isBlank ·)

/-- How many attributes a group holds from a depth on, behind what has been written of the
first one. -/
def heldIn (depth : Int) (written group : List Char) : Nat :=
  ((piecesFrom depth group).modifyHead (written ++ ·)).countP isSolid

theorem heldIn_nil (depth : Int) (written : List Char) :
    heldIn depth written [] = (isSolid written).toNat := by
  simp [heldIn, List.countP_cons]
  cases isSolid written <;> rfl

theorem heldIn_comma (hdepth : depth ≤ 0) (written group : List Char) :
    heldIn depth written (',' :: group) = (isSolid written).toNat + heldIn depth [] group := by
  have hid : (piecesFrom depth group).modifyHead ([] ++ ·) = piecesFrom depth group :=
    congrFun List.modifyHead_id _
  rw [heldIn, piecesFrom_comma hdepth, heldIn, hid, List.modifyHead_cons, List.append_nil,
    List.countP_cons, Nat.add_comm]
  cases isSolid written <;> rfl

theorem heldIn_cons (hcomma : ¬(c = ',' ∧ depth ≤ 0)) (written group : List Char) :
    heldIn depth written (c :: group) =
      heldIn (depth + bracketStep c) (written ++ [c]) group := by
  have hwritten : ((written ++ ·) ∘ (c :: ·)) = ((written ++ [c]) ++ ·) := by
    funext piece
    simp
  rw [heldIn, piecesFrom_cons hcomma, List.modifyHead_modifyHead, hwritten, heldIn]

theorem isSolid_append_singleton (written : List Char) (c : Char) :
    isSolid (written ++ [c]) = (isSolid written || !isBlank c) := by
  simp [isSolid]

theorem isSolid_eq (text : List Char) : isSolid text = !(trim text).isEmpty := by
  cases hsolid : isSolid text with
  | true =>
      obtain ⟨c, hc, hblank⟩ := List.any_eq_true.mp hsolid
      have hne := trim_ne_nil hc (by simpa using hblank)
      simpa using hne
  | false =>
      have hblank : ∀ c ∈ text, isBlank c = true := by simpa [isSolid] using hsolid
      have hnil : trimStart text = [] := by
        rw [← List.append_nil text, trimStart_blanks_append hblank]
        rfl
      rw [trim, hnil]
      rfl

theorem length_pieces (group : List Char) : (pieces group).length = heldIn 0 [] group := by
  have hid : (piecesFrom 0 group).modifyHead ([] ++ ·) = piecesFrom 0 group :=
    congrFun List.modifyHead_id _
  rw [pieces_eq, heldIn, hid, ← List.countP_eq_length_filter, List.countP_map]
  exact List.countP_congr fun piece _ => by rw [Function.comp_apply, isSolid_eq]

/-- A group that is closed is read to its end. -/
theorem run_of_closerLoop {squares : Nat} (hsquares : 1 ≤ squares) (depth : Int)
    (written : List Char) (count : Nat) {offset closer : Nat} {text : List Char}
    (hcloser : closerLoop '[' ']' squares offset text = (closer, true)) :
    ∃ inside rest, text = inside ++ ']' :: rest ∧ closer = offset + byteWidth inside ∧
      (within squares depth (isSolid written) count).run text =
        (between (count + heldIn depth written inside)).run rest := by
  induction text generalizing squares depth written count offset with
  | nil => simp [closerLoop] at hcloser
  | cons c text ih =>
      by_cases hlast : c = ']' ∧ squares ≤ 1
      · obtain ⟨rfl, hone⟩ := hlast
        have hoffset : offset = closer := by simpa [closerLoop, hone] using hcloser
        refine ⟨[], text, rfl, hoffset.symm, ?_⟩
        rw [run_cons, step_within_closer (by omega), heldIn_nil]
      · obtain ⟨next, hnext, hcast, hloop⟩ := closerLoop_square hsquares offset hlast text
        rw [hloop] at hcloser
        by_cases hcomma : c = ',' ∧ depth ≤ 0
        · obtain ⟨rfl, hdepth⟩ := hcomma
          have hsame : (next : Int) = squares := by rw [hcast]; exact Int.add_zero _
          obtain ⟨inside, rest, htext, hoffset, hrun⟩ :=
            ih hnext depth [] (count + (isSolid written).toNat) hcloser
          refine ⟨',' :: inside, rest, by rw [htext]; rfl, by
            rw [hoffset, byteWidth_cons]; omega, ?_⟩
          rw [run_cons, step_within_comma hdepth, ← hsame, heldIn_comma hdepth, ← Nat.add_assoc]
          exact hrun
        · obtain ⟨inside, rest, htext, hoffset, hrun⟩ :=
            ih hnext (depth + bracketStep c) (written ++ [c]) count hcloser
          refine ⟨c :: inside, rest, by rw [htext]; rfl, by
            rw [hoffset, byteWidth_cons]; omega, ?_⟩
          rw [run_cons, step_within (fun hc => hlast ⟨hc.1, by omega⟩) hcomma, ← hcast, heldIn_cons hcomma,
            ← isSolid_append_singleton]
          exact hrun

/-- A group that is never closed is never left. -/
theorem result_run_of_closerLoop {squares : Nat} (hsquares : 1 ≤ squares) (depth : Int)
    (begun : Bool) (count : Nat) {offset stop : Nat} {text : List Char}
    (hcloser : closerLoop '[' ']' squares offset text = (stop, false)) :
    ((within squares depth begun count).run text).result = none := by
  induction text generalizing squares depth begun count offset with
  | nil => rfl
  | cons c text ih =>
      have hlast : ¬(c = ']' ∧ squares ≤ 1) := by
        rintro ⟨rfl, hone⟩
        simp [closerLoop, hone] at hcloser
      obtain ⟨next, hnext, hcast, hloop⟩ := closerLoop_square hsquares offset hlast text
      rw [hloop] at hcloser
      by_cases hcomma : c = ',' ∧ depth ≤ 0
      · obtain ⟨rfl, hdepth⟩ := hcomma
        have hsame : (next : Int) = squares := by rw [hcast]; exact Int.add_zero _
        rw [run_cons, step_within_comma hdepth, ← hsame]
        exact ih hnext depth false _ hcloser
      · rw [run_cons, step_within (fun hc => hlast ⟨hc.1, by omega⟩) hcomma, ← hcast]
        exact ih hnext _ _ count hcloser

/-- What is cut out up to the closer is a group, and the reader counts its pieces. -/
theorem run_of_group (count : Nat) {closer : Nat} {inside : List Char}
    (hcloser : closerLoop '[' ']' 1 1 inside = (closer, true)) :
    (within 1 0 false count).run inside =
        (between (count + (pieces (takeBytes (closer - 1) inside)).length)).run
          (dropBytes closer inside) ∧
      (dropBytes closer inside).length < inside.length := by
  obtain ⟨group, rest, rfl, hwidth, hrun⟩ := run_of_closerLoop (Nat.le_refl 1) 0 [] count hcloser
  have hgroup : takeBytes (closer - 1) (group ++ ']' :: rest) = group := by
    rw [hwidth, Nat.add_sub_cancel_left, takeBytes_append]
  have hrest : dropBytes closer (group ++ ']' :: rest) = rest := by
    have hpast : closer = byteWidth (group ++ [']']) := by
      rw [hwidth, byteWidth_append, Nat.add_comm]
      rfl
    rw [List.append_cons, hpast, dropBytes_byteWidth]
  rw [hgroup, hrest, length_pieces]
  refine ⟨hrun, ?_⟩
  simp only [List.length_append, List.length_cons]
  omega

/-- The loop over the groups finds as many attributes as the reader. -/
theorem length_attributesLoop? {fuel : Nat} {text : List Char} (hfuel : text.length ≤ fuel)
    (hhead : ∀ c ∈ text.head?, isBlank c = false) (found : List String) :
    (attributesLoop? fuel text found).map List.length =
      ((between found.length).run text).result := by
  induction fuel generalizing text found with
  | zero =>
      obtain rfl := List.length_eq_zero_iff.mp (Nat.le_zero.mp hfuel)
      rfl
  | succ fuel ih =>
      cases text with
      | nil => rfl
      | cons c inside =>
          have hsolid : isBlank c = false := hhead c rfl
          by_cases hc : c = '['
          · subst hc
            have hopened : (between found.length).step '[' = within 1 0 false found.length := by
              simp [step, hsolid]
            rw [run_cons, hopened, attributesLoop?]
            rcases hcloser : closerLoop '[' ']' 1 1 inside with ⟨closer, terminated⟩
            cases terminated with
            | false => exact (result_run_of_closerLoop (Nat.le_refl 1) 0 false _ hcloser).symm
            | true =>
                obtain ⟨hrun, hshorter⟩ := run_of_group found.length hcloser
                have hless : (trimStart (dropBytes closer inside)).length ≤ fuel := by
                  have hle : (trimStart (dropBytes closer inside)).length ≤
                      (dropBytes closer inside).length :=
                    (List.dropWhile_suffix isBlank).length_le
                  rw [List.length_cons] at hfuel
                  omega
                simp only
                rw [ih hless fun d => isBlank_of_mem_head?_trimStart, List.length_append,
                  List.length_map, run_trimStart, hrun]
          · have hstep : (between found.length).step c = failed := by simp [step, hsolid, hc]
            have hnone : attributesLoop? (fuel + 1) (c :: inside) found = none := by
              unfold attributesLoop?
              split
              · contradiction
              · next heq => exact absurd (List.cons.inj heq).1 hc
              · rfl
            rw [run_cons, hstep, run_failed, hnone]
            rfl

theorem length_attributes? (text : List Char) :
    (attributes? text).map List.length = ((between 0).run text).result := by
  rw [attributes?, length_attributesLoop? (Nat.le_refl _) fun c => isBlank_of_mem_head?_trim]
  exact congrArg result (run_trim _ text)

/-! ## What is passed over -/

/-- Along a text no square bracket closes the group and no comma ends an attribute. -/
structure PassedOver (squares depth : Int) (content : List Char) : Prop where
  squares_pos : ∀ before, before <+: content → 0 < squares + stepSum squareStep before
  commas : ∀ before, before ++ [','] <+: content → 0 < depth + stepSum bracketStep before

/-- A text is passed over, and behind it the same brackets are open as before it. -/
structure Keeps (squares depth : Int) (content : List Char) : Prop
    extends PassedOver squares depth content where
  squares_eq : stepSum squareStep content = 0
  depth_eq : stepSum bracketStep content = 0

theorem passedOver_nil (hsquares : 0 < squares) (depth : Int) : PassedOver squares depth [] where
  squares_pos before hbefore := by
    rw [List.prefix_nil.mp hbefore, stepSum_nil]
    omega
  commas before hbefore := by simp at hbefore

theorem passedOver_cons_iff (hsquares : 0 < squares) {content : List Char} :
    PassedOver squares depth (c :: content) ↔
      0 < squares + squareStep c ∧ ¬(c = ',' ∧ depth ≤ 0) ∧
        PassedOver (squares + squareStep c) (depth + bracketStep c) content := by
  constructor
  · rintro ⟨hpos, hcommas⟩
    refine ⟨?_, ?_, ?_, ?_⟩
    · have hfirst := hpos [c] ⟨content, rfl⟩
      rwa [stepSum_cons, stepSum_nil, Int.add_zero] at hfirst
    · rintro ⟨rfl, hdepth⟩
      have hfirst := hcommas [] ⟨content, rfl⟩
      rw [stepSum_nil] at hfirst
      omega
    · intro before hbefore
      have hlater := hpos (c :: before) (List.prefix_cons_inj c |>.mpr hbefore)
      rwa [stepSum_cons, ← Int.add_assoc] at hlater
    · intro before hbefore
      have hlater := hcommas (c :: before) (List.prefix_cons_inj c |>.mpr hbefore)
      rwa [stepSum_cons, ← Int.add_assoc] at hlater
  · rintro ⟨-, hcomma, hpos, hcommas⟩
    constructor
    · intro before hbefore
      cases before with
      | nil =>
          rw [stepSum_nil]
          omega
      | cons d before =>
          obtain ⟨rfl, hrest⟩ := List.cons_prefix_cons.mp hbefore
          rw [stepSum_cons, ← Int.add_assoc]
          exact hpos before hrest
    · intro before hbefore
      cases before with
      | nil =>
          have hc : ',' = c := (List.cons_prefix_cons.mp hbefore).1
          rw [stepSum_nil, Int.add_zero]
          exact Int.not_le.mp fun hdepth => hcomma ⟨hc.symm, hdepth⟩
      | cons d before =>
          obtain ⟨rfl, hrest⟩ := List.cons_prefix_cons.mp hbefore
          rw [stepSum_cons, ← Int.add_assoc]
          exact hcommas before hrest

theorem not_closer_iff (hsquares : 0 < squares) :
    ¬(c = ']' ∧ squares ≤ 1) ↔ 0 < squares + squareStep c := by
  by_cases hclose : c = ']'
  · have hstep : squareStep ']' = -1 := by decide
    rw [hclose, hstep, and_iff_right rfl]
    omega
  · have hstep : 0 ≤ squareStep c := by
      rw [squareStep, if_neg hclose]
      split <;> decide
    exact iff_of_true (fun hc => hclose hc.1) (by omega)

/-- More has been read than a number of attributes and one more that has begun, or nothing
can be read any more. -/
def IsBeyond (count : Nat) : AttributeReader → Prop
  | between reached => count < reached
  | within _ _ _ reached => count < reached
  | failed => True

theorem IsBeyond.step {reader : AttributeReader} (hbeyond : reader.IsBeyond count) (c : Char) :
    (reader.step c).IsBeyond count := by
  cases reader with
  | between reached =>
      simp only [AttributeReader.step]
      split
      · exact hbeyond
      · split
        · exact hbeyond
        · trivial
  | within squares depth begun reached =>
      have hbeyond : count < reached := hbeyond
      simp only [AttributeReader.step]
      split
      · exact Nat.lt_add_right _ hbeyond
      · split
        · exact Nat.lt_add_right _ hbeyond
        · exact hbeyond
  | failed => trivial

theorem IsBeyond.run {reader : AttributeReader} (hbeyond : reader.IsBeyond count)
    (text : List Char) : (reader.run text).IsBeyond count := by
  induction text generalizing reader with
  | nil => exact hbeyond
  | cons c text ih => exact ih (hbeyond.step c)

/-- A text is passed over, or the reader gets beyond the attribute it stands in. -/
theorem run_within (hsquares : 0 < squares) (depth : Int) (count : Nat) (content : List Char) :
    (PassedOver squares depth content ∧
        (within squares depth true count).run content =
          within (squares + stepSum squareStep content)
            (depth + stepSum bracketStep content) true count) ∨
      ¬PassedOver squares depth content ∧
        ((within squares depth true count).run content).IsBeyond count := by
  induction content generalizing squares depth with
  | nil => exact Or.inl ⟨passedOver_nil hsquares depth, by simp⟩
  | cons c content ih =>
      rw [passedOver_cons_iff hsquares, run_cons]
      by_cases hcloser : c = ']' ∧ squares ≤ 1
      · refine Or.inr ⟨fun hpassed => (not_closer_iff hsquares).mpr hpassed.1 hcloser, ?_⟩
        rw [hcloser.1, step_within_closer hcloser.2]
        have hbeyond : (between (count + true.toNat)).IsBeyond count :=
          Nat.lt_succ_self count
        exact hbeyond.run content
      · by_cases hcomma : c = ',' ∧ depth ≤ 0
        · refine Or.inr ⟨fun hpassed => hpassed.2.1 hcomma, ?_⟩
          rw [hcomma.1, step_within_comma hcomma.2]
          have hbeyond : (within squares depth false (count + true.toNat)).IsBeyond count :=
            Nat.lt_succ_self count
          exact hbeyond.run content
        · have hpos := (not_closer_iff hsquares).mp hcloser
          rw [step_within hcloser hcomma, Bool.true_or, stepSum_cons, stepSum_cons,
            ← Int.add_assoc, ← Int.add_assoc]
          rcases ih hpos (depth + bracketStep c) with ⟨hpassed, hrun⟩ | ⟨hpassed, hbeyond⟩
          · exact Or.inl ⟨⟨hpos, hcomma, hpassed⟩, hrun⟩
          · exact Or.inr ⟨fun hall => hpassed hall.2.2, hbeyond⟩

/-- Exactly what keeps the brackets leaves the reader where it was. -/
theorem run_eq_self_iff (hsquares : 0 < squares) (depth : Int) (count : Nat)
    {content : List Char} :
    (within squares depth true count).run content = within squares depth true count ↔
      Keeps squares depth content := by
  constructor
  · intro hsame
    rcases run_within hsquares depth count content with ⟨hpassed, hrun⟩ | ⟨-, hbeyond⟩
    · rw [hrun, within.injEq] at hsame
      exact ⟨hpassed, by omega, by omega⟩
    · rw [hsame] at hbeyond
      exact absurd hbeyond (Nat.lt_irrefl count)
  · rintro ⟨hpassed, hsquare, hbracket⟩
    rcases run_within hsquares depth count content with ⟨-, hrun⟩ | ⟨hnot, -⟩
    · rw [hrun, hsquare, hbracket, Int.add_zero, Int.add_zero]
    · contradiction

theorem Keeps.run_eq {content : List Char} (hkeeps : Keeps squares depth content) (count : Nat) :
    (within squares depth true count).run content = within squares depth true count := by
  have hsquares := hkeeps.squares_pos [] List.nil_prefix
  rw [stepSum_nil, Int.add_zero] at hsquares
  exact (run_eq_self_iff hsquares depth count).mpr hkeeps

/-- In a group there are open square brackets. -/
def Stands : AttributeReader → Prop
  | within squares _ _ _ => 0 < squares
  | _ => True

theorem Stands.step {reader : AttributeReader} (hstands : reader.Stands) (c : Char) :
    (reader.step c).Stands := by
  cases reader with
  | between count =>
      simp only [AttributeReader.step]
      split
      · trivial
      · split
        · exact Int.zero_lt_one
        · trivial
  | within squares depth begun count =>
      simp only [AttributeReader.step]
      split
      · trivial
      · next hcloser =>
          split
          · exact hstands
          · exact (not_closer_iff hstands).mp hcloser
  | failed => trivial

theorem Stands.run {reader : AttributeReader} (hstands : reader.Stands) (text : List Char) :
    (reader.run text).Stands := by
  induction text generalizing reader with
  | nil => exact hstands
  | cons c text ih => exact ih (hstands.step c)

/-- Closing square brackets end a group if there are as many of them as are open. -/
theorem result_run_closers (hsquares : 0 < squares) (depth : Int) (count closers : Nat) :
    ((within squares depth true count).run (List.replicate closers ']')).result =
      if squares = closers then some (count + 1) else none := by
  induction closers generalizing squares depth with
  | zero =>
      rw [if_neg (by omega)]
      rfl
  | succ closers ih =>
      rw [List.replicate_succ, run_cons]
      by_cases hlast : squares ≤ 1
      · rw [step_within_closer hlast]
        cases closers with
        | zero =>
            rw [if_pos (by omega)]
            rfl
        | succ closers =>
            have hfailed : (between (count + true.toNat)).step ']' = failed := by
              simp [step]
              decide
            rw [if_neg (by omega), List.replicate_succ, run_cons, hfailed, run_failed]
            rfl
      · have hstep : squareStep ']' = -1 := by decide
        rw [step_within (fun hc => hlast hc.2) (fun hc => absurd hc.1 (by decide)), hstep,
          Bool.true_or, ih (by omega)]
        exact if_congr (by omega) rfl rfl

theorem run_replicate (hsquare : squareStep c = 0) (hcomma : c ≠ ',') (squares depth : Int)
    (count copies : Nat) :
    (within squares depth true count).run (List.replicate copies c) =
      within squares (depth + copies * bracketStep c) true count := by
  induction copies generalizing depth with
  | zero => simp
  | succ copies ih =>
      have hsum : depth + bracketStep c + copies * bracketStep c =
          depth + (copies + 1 : Nat) * bracketStep c := by
        rw [Int.natCast_succ, Int.add_mul, Int.one_mul]
        omega
      rw [List.replicate_succ, run_cons, step_within_plain hsquare hcomma, Bool.true_or, ih, hsum]

/-- Round brackets that bring a depth to one, and a further attribute behind them. -/
def depthProbe (depth : Int) : List Char :=
  List.replicate (depth - 1).toNat ')' ++ (List.replicate (1 - depth).toNat '(' ++ [',', 'x'])

/-- The comma of a probe ends an attribute only below the depth it is made for. -/
theorem run_depthProbe (squares depth top : Int) (count : Nat) :
    ∃ reached, (within squares depth true count).run (depthProbe top) =
      within squares reached true (if depth < top then count + 1 else count) := by
  have hopen : bracketStep '(' = 1 := by decide
  have hclose : bracketStep ')' = -1 := by decide
  have hsign : IsSign 'x' := ⟨by decide, by decide, by decide⟩
  rw [depthProbe, run_append, run_append, run_replicate (by decide) (by decide),
    run_replicate (by decide) (by decide), hopen, hclose]
  have hbalance : depth + ((top - 1).toNat : Int) * -1 + ((1 - top).toNat : Int) * 1 =
      depth - top + 1 := by omega
  rw [hbalance, run_cons]
  by_cases hbelow : depth < top
  · rw [step_within_comma (by omega), if_pos hbelow]
    exact ⟨_, hsign.step_within _ _ _ _⟩
  · have hcomma : bracketStep ',' = 0 := by decide
    rw [step_within (fun hc => absurd hc.1 (by decide)) (fun hc => absurd hc.2 (by omega)),
      if_neg hbelow, squareStep_of_bracketStep hcomma, Int.add_zero]
    exact ⟨_, hsign.step_within _ _ _ _⟩

theorem result_run_depthProbe {squares : Nat} (hsquares : 0 < squares) (depth top : Int)
    (count : Nat) :
    ((within squares depth true count).run (depthProbe top ++ List.replicate squares ']')).result =
      some (if depth < top then count + 2 else count + 1) := by
  obtain ⟨reached, hprobe⟩ := run_depthProbe squares depth top count
  rw [run_append, hprobe, result_run_closers (by omega), if_pos rfl]
  split <;> rfl

/-- Readers at two depths are told apart by a probe for the larger one. -/
theorem depth_eq_of_forall_result {squares : Nat} (hsquares : 0 < squares) {depth depth' : Int}
    (hsame : ∀ behind, ((within squares depth true count).run behind).result =
      ((within squares depth' true count).run behind).result) : depth = depth' := by
  have hprobe := hsame (depthProbe (max depth depth') ++ List.replicate squares ']')
  rw [result_run_depthProbe hsquares, result_run_depthProbe hsquares, Option.some.injEq] at hprobe
  by_contra hne
  rcases Int.lt_or_gt_of_ne hne with hbelow | habove
  · rw [if_pos (by omega), if_neg (by omega)] at hprobe
    omega
  · rw [if_neg (by omega), if_pos (by omega)] at hprobe
    omega

/-- Behind a sign, a reader beyond a number of attributes cannot come to one more by closing
square brackets. -/
theorem IsBeyond.result_run_closers {reader : AttributeReader} (hbeyond : reader.IsBeyond count)
    (hstands : reader.Stands) {sign : Char} (hsign : IsSign sign) (closers : Nat) :
    ((reader.step sign).run (List.replicate closers ']')).result ≠ some (count + 1) := by
  cases reader with
  | between reached =>
      rw [hsign.step_between, run_failed]
      nofun
  | within squares depth begun reached =>
      have hmore : count < reached := hbeyond
      rw [hsign.step_within, AttributeReader.result_run_closers hstands]
      split
      · rw [Ne, Option.some.injEq]
        omega
      · nofun
  | failed =>
      rw [← run_cons, run_failed]
      nofun

/-- What is not kept can be told by some rest of the line behind the sign that ends it. -/
theorem keeps_of_forall_result {squares : Nat} (hsquares : 0 < squares) {content : List Char}
    {sign : Char} (hsign : IsSign sign)
    (hsame : ∀ behind,
      ((within squares depth true count).run (content ++ sign :: behind)).result =
        ((within squares depth true count).run behind).result) :
    Keeps squares depth content := by
  have hpos : (0 : Int) < squares := by omega
  have hstart : (within squares depth true count).Stands := hpos
  have hstands := hstart.run content
  simp only [run_append, run_cons] at hsame
  -- As many closing square brackets as are open before the content end the group behind it.
  have hclosers := hsame (List.replicate squares ']')
  rw [result_run_closers hpos, if_pos rfl] at hclosers
  rcases run_within hpos depth count content with ⟨hpassed, hrun⟩ | ⟨-, hbeyond⟩
  · rw [hrun] at hclosers hstands
    rw [hsign.step_within, result_run_closers hstands] at hclosers
    have hsquare : (squares : Int) + stepSum squareStep content = squares := by
      by_contra hne
      rw [if_neg hne] at hclosers
      contradiction
    rw [hrun, hsign.step_within, hsquare] at hsame
    have hdepth := depth_eq_of_forall_result hsquares hsame
    exact ⟨hpassed, by omega, by omega⟩
  · exact absurd hclosers (hbeyond.result_run_closers hstands hsign squares)

/-- As far as the number of attributes goes, what a quotation mark ends in an attribute is read
like the blanks it is masked with, whatever follows, exactly if it keeps the brackets. -/
theorem length_attributes?_blank_iff {front content : List Char} {quote : Char}
    (hmark : quote ∈ ['"', '\''])
    (hfront : (between 0).run front = within squares depth true count) :
    (∀ behind, (attributes? (front ++ (content ++ quote :: behind))).map List.length =
        (attributes? (front ++
          (List.replicate (byteWidth content) ' ' ++ quote :: behind))).map List.length) ↔
      Keeps squares depth content := by
  have hsign : IsSign quote := by
    simp only [List.mem_cons, List.not_mem_nil, or_false] at hmark
    rcases hmark with rfl | rfl <;> exact ⟨by decide, by decide, by decide⟩
  have hstart : (between 0).Stands := trivial
  have hpos := hstart.run front
  rw [hfront] at hpos
  have hpos : 0 < squares := hpos
  have hblank : (within squares depth true count).run (List.replicate (byteWidth content) ' ') =
      within squares depth true count :=
    run_of_isBlank (fun c hc => by rw [List.eq_of_mem_replicate hc]; decide) _
  have hquote := hsign.step_within squares depth true count
  simp only [length_attributes?, run_append, hfront, hblank, run_cons, hquote]
  constructor
  · intro hsame
    lift squares to Nat using Int.le_of_lt hpos
    exact keeps_of_forall_result (by omega) hsign
      (by simpa only [run_append, run_cons] using hsame)
  · intro hkeeps behind
    rw [hkeeps.run_eq, hquote]

end AttributeReader

end SourceAtlas.CSharp
