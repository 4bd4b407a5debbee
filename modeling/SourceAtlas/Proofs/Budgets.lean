import SourceAtlas.CSharp.Extraction
import Mathlib.Data.List.Basic

/-!
# Collecting in time

The loops that collect declarations look at the clock before each of them.  With time left at
every look they find what a tier finds; with none at the first look they stop before the first
declaration they come to.  A run that is not stopped, however close it came, has found what a
run with all the time finds.
-/

namespace SourceAtlas.CSharp

open Text

namespace Timed

variable {α σ τ : Type}

theorem collect_unlimited {takeUp : σ → α → Budget → Timed σ} {add : σ → α → σ}
    (hadd : ∀ found next, takeUp found next .unlimited = (add found next, some .unlimited))
    (found : σ) (list : List α) :
    collect takeUp found list .unlimited = (list.foldl add found, some .unlimited) := by
  induction list generalizing found with
  | nil => rfl
  | cons next rest ih =>
      simp only [collect, Budget.look?, hadd]
      exact ih (add found next)

theorem collectEach_unlimited (add : σ → α → σ) (found : σ) (list : List α) :
    collectEach add found list .unlimited = (list.foldl add found, some .unlimited) :=
  collect_unlimited (fun _ _ => rfl) found list

/-- Without any time a run gets through nothing but an empty list. -/
theorem collect_spent (takeUp : σ → α → Budget → Timed σ) (found : σ) (list : List α) :
    collect takeUp found list (.looks 0) =
      (found, if list.isEmpty then some (.looks 0) else none) := by
  cases list with
  | nil => rfl
  | cons next rest => rfl

theorem collectEach_spent (add : σ → α → σ) (found : σ) (list : List α) :
    collectEach add found list (.looks 0) =
      (found, if list.isEmpty then some (.looks 0) else none) :=
  collect_spent _ found list

/-- What a run has found when it ends in time is what it finds with all the time. -/
def FindsAll (run : Budget → Timed σ) : Prop :=
  ∀ budget found left, run budget = (found, some left) →
    run .unlimited = (found, some .unlimited)

theorem findsAll_found (found : σ) : FindsAll fun budget => (found, some budget) := by
  intro budget whole left hrun
  obtain ⟨rfl, -⟩ := Prod.mk.inj hrun
  rfl

theorem FindsAll.map {run : Budget → Timed σ} (hrun : FindsAll run) (view : σ → τ) :
    FindsAll fun budget => (run budget).map view := by
  intro budget whole left hmap
  obtain ⟨rfl, hleft⟩ := Prod.mk.inj hmap
  have hunlimited := hrun budget (run budget).1 left (Prod.ext rfl hleft)
  simp only [hunlimited, Timed.map]

theorem FindsAll.andThen {run : Budget → Timed σ} (hrun : FindsAll run) (leaveOff : σ → τ)
    {goOn : σ → Budget → Timed τ} (hgoOn : ∀ found, FindsAll (goOn found)) :
    FindsAll fun budget => (run budget).andThen leaveOff goOn := by
  intro budget whole left hall
  cases hfirst : run budget with
  | mk found after =>
      cases after with
      | none => simp [hfirst, Timed.andThen] at hall
      | some after =>
          simp only [hfirst] at hall
          simp only [hrun budget found after hfirst]
          exact hgoOn found after whole left hall

/-- A look at the clock before a run. -/
theorem FindsAll.look {run : Budget → Timed σ} (hrun : FindsAll run) (found : σ) :
    FindsAll fun budget =>
      match budget.look? with
      | none => (found, none)
      | some budget => run budget := by
  intro budget whole left hall
  cases budget with
  | unlimited => exact hrun .unlimited whole left hall
  | looks count =>
      cases count with
      | zero => simp [Budget.look?] at hall
      | succ count => exact hrun (.looks count) whole left hall

/-- What is left of a run as findings, and whether the time was enough. -/
theorem FindsAll.eq_of_inTime {run : Budget → Timed σ} (hrun : FindsAll run) {budget : Budget}
    (htime : (run budget).2.isSome = true) :
    ((run budget).1, (run budget).2.isSome) =
      ((run .unlimited).1, (run .unlimited).2.isSome) := by
  obtain ⟨left, hleft⟩ := Option.isSome_iff_exists.mp htime
  rw [hrun budget (run budget).1 left (Prod.ext rfl hleft), hleft]
  rfl

theorem findsAll_collect {takeUp : σ → α → Budget → Timed σ}
    (htakeUp : ∀ found next, FindsAll (takeUp found next)) (found : σ) (list : List α) :
    FindsAll (collect takeUp found list) := by
  induction list generalizing found with
  | nil => exact findsAll_found found
  | cons next rest ih => exact ((htakeUp found next).andThen id ih).look found

theorem findsAll_collectEach (add : σ → α → σ) (found : σ) (list : List α) :
    FindsAll (collectEach add found list) :=
  findsAll_collect (fun found next => findsAll_found (add found next)) found list

end Timed

/-- The methods of a list added to what has been found, each behind the types before it. -/
def Findings.addMethods (found : Findings) (listing : Listing) (types : List TypeDeclaration)
    (methods : List Method) : Findings :=
  { found with
    functions := found.functions ++ methodsBehind listing types methods 0
    classes := found.classes.mapIdx fun index type =>
      { type with methods := type.methods ++ methodsBehind listing types methods (index + 1) } }

variable (listing : Listing) (types : List TypeDeclaration)

theorem Findings.addMethods_nil (found : Findings) :
    found.addMethods listing types [] = found := by
  have hclasses : (found.classes.mapIdx fun index type =>
      { type with methods := type.methods ++ methodsBehind listing types [] (index + 1) }) =
        found.classes := by
    apply List.ext_getElem
    · rw [List.length_mapIdx]
    · intro index hindex hindex'
      rw [List.getElem_mapIdx]
      simp [methodsBehind]
  rw [addMethods, hclasses]
  simp [methodsBehind]

theorem methodsBehind_cons (method : Method) (methods : List Method) (count : Nat) :
    methodsBehind listing types (method :: methods) count =
      (if typesBefore types method = count then [method.signature listing [] none] else []) ++
        methodsBehind listing types methods count := by
  unfold methodsBehind
  by_cases hcount : typesBefore types method = count
  · simp [hcount]
  · simp [hcount]

theorem Findings.addMethods_cons (found : Findings) (method : Method) (methods : List Method) :
    found.addMethods listing types (method :: methods) =
      (found.addMethod (typesBefore types method) (method.signature listing [] .none)).addMethods
        listing types methods := by
  cases hbefore : typesBefore types method with
  | zero =>
      simp only [addMethods, addMethod, methodsBehind_cons, hbefore]
      simp
  | succ owner =>
      have hclasses : (found.classes.mapIdx fun index type =>
          { type with
            methods := type.methods ++
              methodsBehind listing types (method :: methods) (index + 1) }) =
          (found.classes.modify owner fun type =>
            { type with methods := type.methods ++ [method.signature listing [] .none] }).mapIdx
              fun index type =>
                { type with
                  methods := type.methods ++ methodsBehind listing types methods (index + 1) } := by
        apply List.ext_getElem
        · simp
        · intro index hindex hindex'
          rw [List.getElem_mapIdx, List.getElem_mapIdx, List.getElem_modify, methodsBehind_cons,
            hbefore]
          by_cases howner : owner = index
          · simp [howner]
          · simp [howner]
      have hfunctions : methodsBehind listing types (method :: methods) 0 =
          methodsBehind listing types methods 0 := by
        simp [methodsBehind_cons, hbefore]
      rw [addMethods, hclasses, hfunctions]
      rfl

/-- With all the time, the methods with a return type are added up to the limit. -/
theorem collectUnscoped_unlimited (limit count : Nat) (found : Findings)
    (methods : List Method) :
    collectUnscoped limit listing types count found methods .unlimited =
      (found.addMethods listing types
        ((methods.filter (·.returnType.isSome)).take (limit - count)), some .unlimited) := by
  induction methods generalizing count found with
  | nil => simp [collectUnscoped, Findings.addMethods_nil]
  | cons method methods ih =>
      rw [collectUnscoped]
      by_cases hlimit : limit ≤ count
      · have hnone : limit - count = 0 := by omega
        rw [if_pos hlimit, hnone, List.take_zero, Findings.addMethods_nil]
      · rw [if_neg hlimit]
        cases hreturn : method.returnType with
        | none =>
            simp only [Budget.look?, Option.isNone_none, if_true]
            rw [ih]
            simp [hreturn]
        | some type =>
            obtain ⟨more, hmore⟩ : ∃ more, limit - count = more + 1 :=
              Nat.exists_eq_add_one.mpr (by omega)
            have hless : limit - (count + 1) = more := by omega
            simp only [Budget.look?, Option.isNone_some, Bool.false_eq_true, if_false]
            rw [ih, hless, hmore, List.filter_cons_of_pos (by simp [hreturn]),
              List.take_succ_cons, Findings.addMethods_cons]

theorem prefix_foldl_addOnce (names start : List String) :
    start <+: names.foldl addOnce start := by
  induction names generalizing start with
  | nil => exact List.prefix_refl start
  | cons name names ih =>
      have hadd : start <+: addOnce start name := by
        unfold addOnce
        split
        · exact List.prefix_refl start
        · exact List.prefix_append start [name]
      exact hadd.trans (ih (addOnce start name))

/-- The limit cuts off what is recorded behind so many names. -/
theorem collectNames_eq {limit : Nat} {start : List String} (hstart : start.length ≤ limit)
    (names : List String) :
    collectNames limit start names = (names.foldl addOnce start).take limit := by
  induction names generalizing start with
  | nil =>
      rw [List.foldl_nil, List.take_of_length_le hstart]
      rfl
  | cons name names ih =>
      rw [collectNames]
      by_cases hfull : limit ≤ start.length
      · obtain ⟨more, hmore⟩ := prefix_foldl_addOnce (name :: names) start
        have hlength : limit = start.length := by omega
        rw [if_pos hfull, ← hmore, hlength, List.take_left]
      · have hadd : (addOnce start name).length ≤ limit := by
          unfold addOnce
          split
          · exact hstart
          · rw [List.length_append, List.length_singleton]
            omega
        rw [if_neg hfull, ih hadd, List.foldl_cons]

theorem minimalWithin_unlimited :
    minimalWithin listing types .unlimited =
      (minimalFindings listing types, some .unlimited) := by
  simp only [minimalWithin, minimalFindings, Timed.collectEach_unlimited,
    List.foldl_flip_cons_eq_append, List.append_nil, Timed.map, List.reverse_reverse]

theorem minimalFindings_addMethods (methods : List Method) :
    ((minimalFindings listing types).addMethods listing types methods).classes =
      types.mapIdx fun index type =>
        { type.signature listing with
          methods := methodsBehind listing types methods (index + 1) } := by
  apply List.ext_getElem
  · simp [Findings.addMethods, minimalFindings]
  · intro index hindex hindex'
    simp [Findings.addMethods, minimalFindings, TypeDeclaration.signature,
      ClassSignature.named]

theorem partialWithin_unlimited (limits : Limits) :
    partialWithin limits listing types .unlimited =
      (partialFindings limits listing types, some .unlimited) := by
  have hclasses := minimalFindings_addMethods listing types
    ((unscopedMethods listing).take limits.partialMethodLimit)
  simp only [partialWithin, minimalWithin_unlimited, Timed.andThen, collectUnscoped_unlimited]
  rw [collectNames_eq (Nat.zero_le _)]
  simp only [partialFindings, ← hclasses]
  rfl

/-- What is collected of a type with all the time is its signature with all its members. -/
theorem collectType_unlimited (found : Collected) (type : TypeDeclaration) :
    collectType listing found type .unlimited =
      ({ types := fullSignature listing type :: found.types
         constants := (constantsOf type).foldl addOnce found.constants }, some .unlimited) := by
  cases hbody : type.body with
  | none =>
      simp [collectType, hbody, fullSignature, directMethods, fieldsOf, constantsOf,
        TypeDeclaration.signature, ClassSignature.named, Collected.addType]
  | some both =>
      obtain ⟨block, body⟩ := both
      have hmembers : collectMembers listing type body .unlimited =
          (((directMethods type).map (memberSignature listing)).reverse, some .unlimited) := by
        simp only [collectMembers, Timed.collectEach_unlimited, directMethods, hbody]
        rw [← List.foldl_filter, List.foldl_flip_cons_eq_append, List.append_nil]
      simp only [collectType, hbody, hmembers, Timed.andThen, List.reverse_reverse, fullSignature,
        Collected.addType]

theorem foldl_collectType (found : Collected) :
    types.foldl
        (fun found type =>
          { types := fullSignature listing type :: found.types
            constants := (constantsOf type).foldl addOnce found.constants : Collected }) found =
      { types := (types.map (fullSignature listing)).reverse ++ found.types
        constants := (types.flatMap constantsOf).foldl addOnce found.constants } := by
  induction types generalizing found with
  | nil => rfl
  | cons type types ih =>
      rw [List.foldl_cons, ih]
      simp

theorem foldl_collectFree (found : CollectedFree) (methods : List Method) :
    (methods.foldl
        (fun found method =>
          if method.returnType.isNone
              || TypeDeclaration.insideAny types listing.masked method.start
              || found.bodies.any (·.contains method.start) then found
          else { bodies := method.body.toList ++ found.bodies, kept := method :: found.kept })
        found).kept.reverse =
      freeMethodsLoop listing types found.bodies found.kept methods := by
  induction methods generalizing found with
  | nil => rfl
  | cons method methods ih =>
      rw [List.foldl_cons, ih, freeMethodsLoop]
      split <;> rfl

theorem fullWithin_unlimited :
    fullWithin listing types .unlimited = (fullFindings listing types, some .unlimited) := by
  simp only [fullWithin, Timed.collect_unlimited (collectType_unlimited listing),
    foldl_collectType, Timed.andThen, collectFree, Timed.collectEach_unlimited, Timed.map,
    foldl_collectFree, Collected.within, List.append_nil, List.reverse_reverse]
  rfl

/-- With all the time a tier finds what there is. -/
theorem findingsWithin_unlimited (tier : Tier) (limits : Limits) :
    findingsWithin tier limits listing types .unlimited =
      (match tier with
        | .minimal => minimalFindings listing types
        | .partly => partialFindings limits listing types
        | .full => fullFindings listing types, true) := by
  cases tier with
  | minimal => simp [findingsWithin, minimalWithin_unlimited]
  | partly => simp [findingsWithin, partialWithin_unlimited]
  | full => simp [findingsWithin, fullWithin_unlimited]

theorem findsAll_minimalWithin : Timed.FindsAll (minimalWithin listing types) :=
  (Timed.findsAll_collectEach _ [] types).map _

theorem findsAll_collectUnscoped (limit count : Nat) (found : Findings)
    (methods : List Method) :
    Timed.FindsAll (collectUnscoped limit listing types count found methods) := by
  induction methods generalizing count found with
  | nil => exact Timed.findsAll_found found
  | cons method methods ih =>
      by_cases hlimit : limit ≤ count
      · simp only [collectUnscoped, if_pos hlimit]
        exact Timed.findsAll_found found
      · simp only [collectUnscoped, if_neg hlimit]
        apply Timed.FindsAll.look
        split
        · exact ih count found
        · exact ih (count + 1) _

theorem findsAll_partialWithin (limits : Limits) :
    Timed.FindsAll (partialWithin limits listing types) :=
  (findsAll_minimalWithin listing types).andThen id fun found =>
    (findsAll_collectUnscoped listing types _ 0 found _).andThen id fun _ =>
      Timed.findsAll_found _

theorem findsAll_collectType (found : Collected) (type : TypeDeclaration) :
    Timed.FindsAll fun budget => collectType listing found type budget := by
  cases hbody : type.body with
  | none =>
      simp only [collectType, hbody]
      exact Timed.findsAll_found _
  | some both =>
      simp only [collectType, hbody]
      exact Timed.FindsAll.andThen (Timed.findsAll_collectEach _ [] _) _ fun _ =>
        Timed.findsAll_found _

theorem findsAll_fullWithin : Timed.FindsAll (fullWithin listing types) :=
  (Timed.findsAll_collect (findsAll_collectType listing) _ types).andThen _ fun _ =>
    Timed.FindsAll.map (Timed.findsAll_collectEach _ _ _) _

/-- A run that is not stopped has found what a run with all the time finds. -/
theorem findingsWithin_of_inTime {tier : Tier} {limits : Limits} {budget : Budget}
    (htime : (findingsWithin tier limits listing types budget).2 = true) :
    findingsWithin tier limits listing types budget =
      findingsWithin tier limits listing types .unlimited := by
  cases tier with
  | minimal => exact (findsAll_minimalWithin listing types).eq_of_inTime htime
  | partly => exact (findsAll_partialWithin listing types limits).eq_of_inTime htime
  | full => exact (findsAll_fullWithin listing types).eq_of_inTime htime

theorem minimalWithin_spent :
    minimalWithin listing types (.looks 0) =
      (Findings.none, if types.isEmpty then some (.looks 0) else none) := by
  simp only [minimalWithin, Timed.collectEach_spent, Timed.map]
  rfl

/-- The limit is looked at before the clock. -/
theorem collectUnscoped_spent (limit : Nat) (found : Findings) (methods : List Method) :
    collectUnscoped limit listing types 0 found methods (.looks 0) =
      (found, if limit != 0 && !methods.isEmpty then none else some (.looks 0)) := by
  cases methods with
  | nil => simp [collectUnscoped]
  | cons method methods =>
      by_cases hlimit : limit = 0
      · simp [collectUnscoped, hlimit]
      · simp [collectUnscoped, hlimit, Budget.look?]

theorem partialWithin_spent (limits : Limits) :
    (partialWithin limits listing types (.looks 0)).2.isSome =
        !hasTimedWork .partly limits listing types ∧
      (hasTimedWork .partly limits listing types = true →
        (partialWithin limits listing types (.looks 0)).1 = Findings.none) := by
  cases types with
  | nil =>
      simp only [partialWithin, minimalWithin_spent, List.isEmpty_nil, if_true, Timed.andThen,
        collectUnscoped_spent, hasTimedWork]
      cases limits.partialMethodLimit != 0 &&
          !(Method.allIn (Cursor.ofText listing.masked)).isEmpty <;> simp
  | cons type types =>
      simp only [partialWithin, minimalWithin_spent, hasTimedWork]
      exact ⟨rfl, fun _ => rfl⟩

theorem fullWithin_spent (limits : Limits) :
    (fullWithin listing types (.looks 0)).2.isSome =
        !hasTimedWork .full limits listing types ∧
      (fullWithin listing types (.looks 0)).1 = surroundings listing types := by
  cases types with
  | nil =>
      simp only [fullWithin, Timed.collect_spent, List.isEmpty_nil, if_true, Timed.andThen,
        collectFree, Timed.collectEach_spent, Timed.map, hasTimedWork]
      refine ⟨?_, rfl⟩
      cases (Method.allIn (Cursor.ofText listing.masked)).isEmpty <;> rfl
  | cons type types =>
      simp only [fullWithin, Timed.collect_spent, hasTimedWork]
      exact ⟨rfl, rfl⟩

/-- Without any time a tier is stopped at the first declaration that it takes up, and all that
it has found is what surrounds the declarations. -/
theorem findingsWithin_spent (tier : Tier) (limits : Limits) :
    (findingsWithin tier limits listing types (.looks 0)).2 =
        !hasTimedWork tier limits listing types ∧
      (hasTimedWork tier limits listing types = true →
        (findingsWithin tier limits listing types (.looks 0)).1 =
          match tier with
          | .full => surroundings listing types
          | _ => Findings.none) := by
  cases tier with
  | minimal =>
      simp only [findingsWithin, minimalWithin_spent, hasTimedWork]
      cases types <;> simp
  | partly => exact partialWithin_spent listing types limits
  | full =>
      obtain ⟨htime, hfound⟩ := fullWithin_spent listing types limits
      exact ⟨htime, fun _ => hfound⟩

/-- The findings of a tier: with a budget that is spent at once, nothing but what surrounds the
declarations if there are any to take up, and else what it finds with all the time. -/
theorem findings_eq (tier : Tier) (limits : Limits) :
    findings tier limits listing types =
      if limits.isSpent && hasTimedWork tier limits listing types then
        (match tier with
          | .full => surroundings listing types
          | _ => Findings.none, false)
      else
        (match tier with
          | .minimal => minimalFindings listing types
          | .partly => partialFindings limits listing types
          | .full => fullFindings listing types, true) := by
  rw [← findingsWithin_unlimited, findings, Limits.budget]
  cases hspent : limits.isSpent with
  | false => rfl
  | true =>
      obtain ⟨htime, hfound⟩ := findingsWithin_spent listing types tier limits
      cases hwork : hasTimedWork tier limits listing types with
      | false =>
          rw [hwork] at htime
          exact findingsWithin_of_inTime listing types htime
      | true =>
          rw [hwork] at htime
          exact Prod.ext (hfound hwork) htime

end SourceAtlas.CSharp
