import SourceAtlas.CSharp.TypeDeclaration
import SourceAtlas.Proofs.BraceHeights
import SourceAtlas.Proofs.Matching

/-!
# Where type declarations stand

A matched declaration stands in the masked text as a signature without braces, a
header without opening braces, and a body that begins where the header ends.  The
heights along it follow from that, whatever the text around it looks like, and the
declarations of a text follow each other in the order of their names.
-/

namespace SourceAtlas.CSharp

open Text Text.Pattern

/-- What can stand at the edge of a declaration. -/
def isEdge (c : Char) : Bool :=
  isBlank c || c = '{' || c = '}' || c = ';' || c = ']'

/-- A declaration begins at the start of the window or behind a character at its edge. -/
theorem mem_outcomes_declarationEdge {start reached : Progress Mark} :
    reached ∈ declarationEdge.outcomes start ↔
      start.place.before = [] ∧ reached = start ∨
        ∃ c next, start.place.next? = some (c, next) ∧ isEdge c = true ∧
          reached = { start with place := next } := by
  have hboth : reached ∈ declarationEdge.outcomes start ↔
      reached ∈ (windowStart : Shape).outcomes start ∨ reached ∈ (one isEdge).outcomes start :=
    List.mem_append
  rw [hboth, mem_outcomes_one]
  simp only [outcomes]
  cases hbefore : start.place.before <;> simp

/-- A match of the shape of types marks its modifiers, its keyword and its name.  No
space stands where the modifiers begin, and no brace from there to the end of the name. -/
theorem parts_of_produces_typeShape {found : Match Mark} (hproduces : typeShape.Produces found) :
    ∃ modifiers keyword name : Span,
      found.parts = [(.name, name), (.keyword, keyword), (.modifiers, modifiers)] ∧
      found.whole.start.LeadsTo modifiers.start ∧ keyword.start.LeadsTo keyword.stop ∧
      name.start.LeadsTo name.stop ∧ name.stop = found.whole.stop ∧ ∃ passed,
        modifiers.start.Moves passed name.stop ∧ passed ≠ [] ∧ '{' ∉ passed ∧
          '}' ∉ passed ∧ passed.head? ≠ some ' ' := by
  obtain ⟨reached, hreached, hstop, hparts⟩ := hproduces
  unfold typeShape at hreached
  simp only [mem_outcomes_seq] at hreached
  obtain ⟨behindGap, ⟨behindKeyword, ⟨behindModifiers, ⟨behindEdge, hedge, hmodifiers⟩,
    hkeyword⟩, hgap⟩, hname⟩ := hreached
  rw [mem_outcomes_part] at hmodifiers hkeyword hname
  obtain ⟨modifiers, hmodifiers, rfl⟩ := hmodifiers
  obtain ⟨keyword, hkeyword, rfl⟩ := hkeyword
  obtain ⟨name, hname, rfl⟩ := hname
  obtain ⟨edgePassed, hedge⟩ := exists_passes hedge
  obtain ⟨modifiersPassed, hmodifiers⟩ := exists_passes hmodifiers
  obtain ⟨keywordPassed, hkeyword⟩ := exists_passes hkeyword
  obtain ⟨gapPassed, hgap⟩ := exists_passes hgap
  obtain ⟨namePassed, hname⟩ := exists_passes hname
  have hmarks : name.parts =
      [(.keyword, { start := modifiers.place, stop := keyword.place }),
        (.modifiers, { start := behindEdge.place, stop := modifiers.place })] := by
    rw [hname.parts (by decide), hgap.parts (by decide), hkeyword.parts (by decide),
      hmodifiers.parts (by decide), hedge.parts (by decide)]
  refine ⟨⟨behindEdge.place, modifiers.place⟩, ⟨modifiers.place, keyword.place⟩,
    ⟨behindGap.place, name.place⟩, ?_, ⟨edgePassed, hedge.moves⟩,
    ⟨keywordPassed, hkeyword.moves⟩, ⟨namePassed, hname.moves⟩, hstop.symm, _,
    ((hmodifiers.moves.trans hkeyword.moves).trans hgap.moves).trans hname.moves, ?_, ?_, ?_,
    ?_⟩
  · rw [hparts, hmarks]
  · have hne : namePassed ≠ [] := hname.consumes (by decide)
    simp [hne]
  · simp only [List.mem_append, not_or]
    exact ⟨⟨⟨hmodifiers.avoids '{' (by decide), hkeyword.avoids '{' (by decide)⟩,
      hgap.avoids '{' (by decide)⟩, hname.avoids '{' (by decide)⟩
  · simp only [List.mem_append, not_or]
    exact ⟨⟨⟨hmodifiers.avoids '}' (by decide), hkeyword.avoids '}' (by decide)⟩,
      hgap.avoids '}' (by decide)⟩, hname.avoids '}' (by decide)⟩
  · have hne : keywordPassed ≠ [] := hkeyword.consumes (by decide)
    rw [List.append_assoc, List.append_assoc]
    apply head?_append_ne (hmodifiers.opening ' ' (by decide))
    rw [List.head?_append_of_ne_nil _ hne]
    exact hkeyword.opening ' ' (by decide)

namespace TypeDeclaration

/-- Offset where the header ends. -/
def headerStop (declaration : TypeDeclaration) : Nat :=
  declaration.headerStart + byteWidth declaration.header

/-- The block of the body. -/
def block? (declaration : TypeDeclaration) : Option Block :=
  declaration.body.map (·.1)

theorem mem_block? {declaration : TypeDeclaration} {block : Block} {body : Cursor}
    (hbody : declaration.body = some (block, body)) : block ∈ declaration.block? := by
  simp [block?, hbody]

theorem exists_body_of_mem_block? {declaration : TypeDeclaration} {block : Block}
    (hblock : block ∈ declaration.block?) :
    ∃ body, declaration.body = some (block, body) := by
  obtain ⟨⟨found, body⟩, hbody, rfl⟩ := Option.map_eq_some_iff.mp hblock
  exact ⟨body, hbody⟩

/-- A declaration stands in a masked text: no brace in its signature, no opening
brace in its header, and a body that begins with the brace behind the header. -/
structure StandsIn (declaration : TypeDeclaration) (masked : List Char) : Prop where
  start_lt : declaration.start < declaration.headerStart
  headerStop_le : declaration.headerStop ≤ byteWidth masked
  signature : ∀ offset, declaration.start ≤ offset → offset ≤ declaration.headerStart →
    height masked offset = height masked declaration.start
  header : ∀ offset, declaration.headerStart ≤ offset → offset ≤ declaration.headerStop →
    height masked offset ≤ height masked declaration.start
  behindHeader : height masked declaration.headerStop =
    height masked declaration.start - declaration.header.count '}'
  opener : ∀ block ∈ declaration.block?, block.opener = declaration.headerStop
  block : ∀ block ∈ declaration.block?, block.StandsIn masked
  inside : ∀ block body, declaration.body = some (block, body) →
    body.StandsIn masked ∧ body.offset = block.opener + 1 ∧ body.stop = block.closer

theorem standsIn_of_bodyAt? {masked : List Char} {place : Cursor} (hplace : place.StandsIn masked)
    {block : Block} {body : Cursor} (hbody : bodyAt? place = some (block, body)) :
    block.opener = place.offset ∧ block.StandsIn masked ∧ body.StandsIn masked ∧
      body.offset = block.opener + 1 ∧ body.stop = block.closer := by
  have hopen : ('{' : Char).utf8Size = 1 := by decide
  obtain ⟨front, hmasked, hoffset⟩ := hplace
  unfold bodyAt? at hbody
  split at hbody
  · next inside hafter =>
      obtain ⟨found, hfound, hopener, hstands⟩ := exists_standsIn_blockFrom? front inside
      rw [hafter, hoffset, hfound] at hbody
      simp only [Option.map_some, Option.some.injEq, Prod.mk.injEq] at hbody
      obtain ⟨rfl, rfl⟩ := hbody
      rw [hafter] at hmasked
      refine ⟨hopener.trans hoffset.symm, hmasked ▸ hstands, ⟨front ++ ['{'], ?_, ?_⟩, ?_, rfl⟩
      · rw [hmasked, List.append_assoc]
        rfl
      · simp only [Cursor.window, Cursor.past, hoffset, byteWidth_append, byteWidth_cons,
          byteWidth_nil, Nat.add_zero]
      · simp only [Cursor.window, Cursor.past, hoffset, hopener, hopen]
  · contradiction

/-- The heights along a declaration, from the parts of the text around it. -/
theorem standsIn_of_parts {declaration : TypeDeclaration} {front signature header rest : List Char}
    (hstart : declaration.start = byteWidth front)
    (hheaderStart : declaration.headerStart = byteWidth front + byteWidth signature)
    (hheader : declaration.header = header) (hsignature : signature ≠ [])
    (hopen : '{' ∉ signature) (hclose : '}' ∉ signature) (hheaderOpen : '{' ∉ header)
    (hbody : ∀ block body, declaration.body = some (block, body) →
      block.opener = byteWidth front + byteWidth signature + byteWidth header ∧
        block.StandsIn (front ++ (signature ++ (header ++ rest))) ∧
        body.StandsIn (front ++ (signature ++ (header ++ rest))) ∧
        body.offset = block.opener + 1 ∧ body.stop = block.closer) :
    declaration.StandsIn (front ++ (signature ++ (header ++ rest))) := by
  have hpos := byteWidth_pos hsignature
  have hstop : declaration.headerStop =
      byteWidth front + byteWidth signature + byteWidth header := by
    rw [headerStop, hheaderStart, hheader]
  have hsum : braceSum signature = 0 := braceSum_eq_zero hopen hclose
  have hfront : ∀ offset, height (front ++ (signature ++ (header ++ rest)))
      (byteWidth front + offset) =
        braceSum front + height (signature ++ (header ++ rest)) offset := fun offset =>
    height_append _ _ _
  have hbehind : ∀ offset, height (front ++ (signature ++ (header ++ rest)))
      (byteWidth front + byteWidth signature + offset) =
        braceSum front + height (header ++ rest) offset := by
    intro offset
    rw [Nat.add_assoc, hfront, height_append, hsum, zero_add]
  have hbase : height (front ++ (signature ++ (header ++ rest))) declaration.start =
      braceSum front := by
    rw [hstart, height_byteWidth]
  constructor
  · omega
  · rw [hstop]
    simp only [byteWidth_append]
    omega
  · intro offset hfrom hto
    obtain ⟨inner, rfl⟩ := Nat.exists_eq_add_of_le (hstart ▸ hfrom)
    rw [hbase, hfront, height_eq_zero_of_braceless hopen hclose _ (by omega), add_zero]
  · intro offset hfrom hto
    obtain ⟨inner, rfl⟩ := Nat.exists_eq_add_of_le (hheaderStart ▸ hfrom)
    have hle : height (header ++ rest) inner ≤ 0 :=
      height_le_zero_of_openless hheaderOpen rest (by omega)
    rw [hbase, hbehind]
    omega
  · rw [hbase, hstop, hbehind, height_byteWidth, braceSum_eq_neg_count hheaderOpen, hheader]
    omega
  · intro block hblock
    obtain ⟨body, hfound⟩ := exists_body_of_mem_block? hblock
    rw [hstop]
    exact (hbody block body hfound).1
  · intro block hblock
    obtain ⟨body, hfound⟩ := exists_body_of_mem_block? hblock
    exact (hbody block body hfound).2.1
  · intro block body hfound
    exact (hbody block body hfound).2.2

/-- The declaration that the marked parts of a match stand for. -/
def ofSpans (modifiers keyword name : Span) : TypeDeclaration where
  name := name.string
  kind := TypeKind.ofKeyword keyword.text
  start := modifiers.start.offset
  headerStart := name.stop.offset
  header := name.stop.upTo (headerEnd name.stop).offset
  body := bodyAt? (headerEnd name.stop)

theorem ofMatch?_eq {found : Match Mark} {modifiers keyword name : Span}
    (hparts : found.parts = [(.name, name), (.keyword, keyword), (.modifiers, modifiers)]) :
    ofMatch? found =
      if isKeyword name.string || !keywordFits keyword.text name.stop.after then none
      else some (ofSpans modifiers keyword name) := by
  have hmodifiers : found.part? .modifiers = some modifiers := by simp [Match.part?, hparts]
  have hkeyword : found.part? .keyword = some keyword := by simp [Match.part?, hparts]
  have hname : found.part? .name = some name := by simp [Match.part?, hparts]
  unfold ofMatch?
  rw [hmodifiers, hkeyword, hname]
  simp only
  by_cases hkey : isKeyword name.string = true
  · simp [hkey]
  · by_cases hfits : keywordFits keyword.text name.stop.after = true
    · simp [hkey, hfits, ofSpans]
    · simp [hkey, hfits]

theorem eq_ofSpans_of_ofMatch? {found : Match Mark} {modifiers keyword name : Span}
    (hparts : found.parts = [(.name, name), (.keyword, keyword), (.modifiers, modifiers)])
    {declaration : TypeDeclaration} (hdeclaration : ofMatch? found = some declaration) :
    declaration = ofSpans modifiers keyword name := by
  rw [ofMatch?_eq hparts] at hdeclaration
  split at hdeclaration
  · contradiction
  · exact (Option.some.inj hdeclaration).symm

/-- A candidate is read off spans that stand in the text, and its signature begins with none
of the spaces that masking leaves behind. -/
theorem exists_spans {masked : List Char} {declaration : TypeDeclaration}
    (hmem : declaration ∈ candidates masked) :
    ∃ modifiers keyword name : Span, declaration = ofSpans modifiers keyword name ∧
      modifiers.start.StandsIn masked ∧ ∃ signature,
        modifiers.start.Moves signature name.stop ∧ signature ≠ [] ∧
          signature.head? ≠ some ' ' := by
  obtain ⟨found, hfound, hdeclaration⟩ := List.mem_filterMap.mp hmem
  obtain ⟨modifiers, keyword, name, hparts, hedge, -, -, -, signature, hsignature, hne, -, -,
    hspace⟩ := parts_of_produces_typeShape (produces_of_mem_findAll hfound)
  have hplace : modifiers.start.StandsIn masked :=
    (Cursor.standsIn_ofText masked).of_leadsTo ((leadsTo_of_mem_findAll hfound).trans hedge)
  exact ⟨modifiers, keyword, name, eq_ofSpans_of_ofMatch? hparts hdeclaration, hplace, signature,
    hsignature, hne, hspace⟩

theorem standsIn_of_ofMatch? {masked : List Char} {found : Match Mark}
    {declaration : TypeDeclaration} (hfound : found ∈ typeShape.findAll (Cursor.ofText masked))
    (hdeclaration : ofMatch? found = some declaration) :
    declaration.StandsIn masked ∧ found.whole.start.offset ≤ declaration.start ∧
      declaration.headerStart = found.whole.stop.offset := by
  obtain ⟨modifiers, keyword, name, hparts, hedge, -, -, hstop, signature, hsignature, hne, hopen,
    hclose, -⟩ := parts_of_produces_typeShape (produces_of_mem_findAll hfound)
  obtain rfl := eq_ofSpans_of_ofMatch? hparts hdeclaration
  refine ⟨?_, hedge.offset_le, congrArg Cursor.offset hstop⟩
  have hstart : modifiers.start.StandsIn masked :=
    (Cursor.standsIn_ofText masked).of_leadsTo ((leadsTo_of_mem_findAll hfound).trans hedge)
  obtain ⟨header, hheader, htest⟩ :=
    Cursor.exists_moves_skipWhile (fun c => !(c = '{' || c = ';')) name.stop
  have hplace : (headerEnd name.stop).StandsIn masked :=
    hstart.of_leadsTo ⟨_, hsignature.trans hheader⟩
  obtain ⟨front, hmasked, hoffset⟩ := hstart
  have hheaderStart : name.stop.offset = byteWidth front + byteWidth signature := by
    rw [hsignature.offset, hoffset]
  rw [hsignature.after, hheader.after] at hmasked
  subst hmasked
  apply standsIn_of_parts hoffset hheaderStart hheader.upTo_eq hne hopen hclose
  · intro hmem
    simpa using htest '{' hmem
  · intro block body hbody
    obtain ⟨hopener, hplaces⟩ := standsIn_of_bodyAt? hplace hbody
    refine ⟨?_, hplaces⟩
    rw [hopener, ← hheaderStart]
    exact hheader.offset

/-- Declarations follow each other in the order of their names. -/
theorem pairwise_candidates (masked : List Char) :
    (candidates masked).Pairwise
      (fun earlier later => earlier.headerStart ≤ later.start) := by
  unfold candidates
  rw [List.pairwise_filterMap]
  apply (pairwise_findAll typeShape (Cursor.ofText masked)).imp_of_mem
  intro found later hfound hlater hleads declaration hdeclaration declaration' hdeclaration'
  obtain ⟨-, -, hstop⟩ := standsIn_of_ofMatch? hfound hdeclaration
  obtain ⟨-, hstart, -⟩ := standsIn_of_ofMatch? hlater hdeclaration'
  have hle := hleads.offset_le
  omega

theorem standsIn_of_mem_candidates {masked : List Char} {declaration : TypeDeclaration}
    (hmem : declaration ∈ candidates masked) : declaration.StandsIn masked := by
  obtain ⟨found, hfound, hdeclaration⟩ := List.mem_filterMap.mp hmem
  exact (standsIn_of_ofMatch? hfound hdeclaration).1

/-- Offset just past a declaration: past its body, or where its header ends. -/
def past (declaration : TypeDeclaration) : Nat :=
  match declaration.block? with
  | some block => block.past
  | none => declaration.headerStop

namespace StandsIn

variable {masked : List Char} {declaration later : TypeDeclaration} {block : Block}

theorem headerStart_le (declaration : TypeDeclaration) :
    declaration.headerStart ≤ declaration.headerStop :=
  Nat.le_add_right _ _

theorem start_lt_opener (hstands : declaration.StandsIn masked)
    (hblock : block ∈ declaration.block?) : declaration.start < block.opener := by
  have hstart := hstands.start_lt
  have hopener := hstands.opener block hblock
  have hle := headerStart_le declaration
  omega

theorem start_le_past (hstands : declaration.StandsIn masked) :
    declaration.start ≤ declaration.past := by
  have hstart := hstands.start_lt
  have hle := headerStart_le declaration
  unfold past
  split
  · next block hblock =>
      have hopener := hstands.opener block hblock
      have hlt := (hstands.block block hblock).opener_lt
      unfold Block.past
      split <;> omega
  · omega

theorem closer_le_past (hblock : block ∈ declaration.block?) :
    block.closer ≤ declaration.past := by
  rw [Option.mem_def] at hblock
  simp only [past, hblock, Block.past]
  split <;> omega

theorem enclosing_iff {offset : Nat} (hle : declaration.start ≤ offset) :
    declaration.enclosing masked offset = true ↔
      height masked declaration.start < height masked offset := by
  unfold enclosing
  rw [balance_eq_sub masked hle, decide_eq_true_eq]
  omega

/-- Inside the body the text stays above the height behind the header. -/
theorem height_inside (hstands : declaration.StandsIn masked)
    (hblock : block ∈ declaration.block?) {offset : Nat} (hfrom : block.opener < offset)
    (hto : offset ≤ block.closer) :
    height masked declaration.start - declaration.header.count '}' + 1 ≤
      height masked offset := by
  have hinside := (hstands.block block hblock).inside offset hfrom hto
  have hheader := hstands.behindHeader
  rw [hstands.opener block hblock] at hinside
  omega

/-- If no brace is closed in the header, the body is enclosed by the declaration. -/
theorem enclosing_of_contains (hstands : declaration.StandsIn masked)
    (hheader : '}' ∉ declaration.header) (hblock : block ∈ declaration.block?) {offset : Nat}
    (hcontains : block.contains offset = true) :
    declaration.enclosing masked offset = true := by
  simp only [Block.contains, Bool.and_eq_true, decide_eq_true_eq] at hcontains
  have hstart := hstands.start_lt_opener hblock
  have hinside := hstands.height_inside hblock hcontains.1 (by omega)
  rw [List.count_eq_zero_of_not_mem hheader] at hinside
  rw [enclosing_iff (by omega)]
  omega

/-- A later declaration outside the header and the body of an earlier one starts past
it. -/
theorem past_le (hstands : declaration.StandsIn masked) (hlater : later.StandsIn masked)
    (horder : declaration.headerStart ≤ later.start)
    (hheader : declaration.headerContains later.start = false)
    (hbody : ∀ block ∈ declaration.block?, block.contains later.start = false) :
    declaration.past ≤ later.start := by
  have hstop : declaration.headerStop ≤ later.start := by
    simp only [headerContains, Bool.and_eq_false_iff, decide_eq_false_iff_not] at hheader
    unfold headerStop
    omega
  unfold past
  split
  · next block hblock =>
      have hopener := hstands.opener block hblock
      have hblockStands := hstands.block block hblock
      have hcontains := hbody block hblock
      have hlaterStart := hlater.start_lt
      -- The brace that opens the body is not a part of the later signature.
      have hne : later.start ≠ block.opener := by
        intro heq
        have hsame := hlater.signature (block.opener + 1) (by omega) (by omega)
        have hrise := hblockStands.start
        rw [heq] at hsame
        omega
      simp only [Block.contains, Bool.and_eq_false_iff, decide_eq_false_iff_not] at hcontains
      have hcloser : block.closer ≤ later.start := by omega
      cases hterminated : block.terminated with
      | true =>
          obtain ⟨-, hlast, hfall⟩ := hblockStands.closed hterminated
          -- Neither is the brace that closes it.
          have hne : later.start ≠ block.closer := by
            intro heq
            have hsame := hlater.signature (block.closer + 1) (by omega) (by omega)
            rw [heq] at hsame
            omega
          simp only [Block.past, hterminated, if_true]
          omega
      | false =>
          simp only [Block.past, hterminated, Bool.false_eq_true, if_false]
          exact hcloser
  · exact hstop

end StandsIn

end TypeDeclaration

end SourceAtlas.CSharp
