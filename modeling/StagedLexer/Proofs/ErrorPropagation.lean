import StagedLexer.Proofs.Rescan
import StagedLexer.Proofs.Visits

/-! Application errors. A call that reports one is the last reading that is made: every reader around
it passes the code on, no other branch is tried, and the scan ends with the event that carries it. -/
namespace StagedLexer

variable {Ctx : Type}

/-- The visit is a call, and what is called reports an application error. -/
def Visit.Reports (text : Bytes) (ctx : Ctx) (visit : Visit Ctx) (code : ErrorCode) : Prop :=
  ∃ id run, visit.reader = .leaf id (.custom run) ∧ visit.pos ≤ text.size ∧
    run text visit.pos ctx = .failed code

/-- The visits come to an end at the first application error. If there is none, none is reported. -/
inductive Aborts (text : Bytes) (ctx : Ctx) : List (Visit Ctx) → Option ErrorCode → Prop
  | nil : Aborts text ctx [] none
  | quiet {visit : Visit Ctx} {made : List (Visit Ctx)} {found : Option ErrorCode}
      (calm : ∀ code, ¬ visit.Reports text ctx code) (rest : Aborts text ctx made found) :
      Aborts text ctx (visit :: made) found
  | reported {visit : Visit Ctx} {code : ErrorCode} (report : visit.Reports text ctx code) :
      Aborts text ctx [visit] (some code)

/-- The application error that is the outcome, if it is one. -/
def Reading.error? : Reading → Option ErrorCode
  | .failed code => some code
  | _ => none

def Outcome.error? : Outcome → Option ErrorCode
  | .failed _ code => some code
  | _ => none

variable {text : Bytes} {ctx : Ctx}

theorem Visit.Reports.code_eq {visit : Visit Ctx} {code other : ErrorCode}
    (first : visit.Reports text ctx code) (second : visit.Reports text ctx other) :
    code = other := by
  obtain ⟨id, run, reader, -, found⟩ := first
  obtain ⟨id', run', reader', -, found'⟩ := second
  cases reader.symm.trans reader'
  exact Reading.failed.inj (found.symm.trans found')

namespace Aborts

variable {made more : List (Visit Ctx)} {found : Option ErrorCode} {code : ErrorCode}

theorem append (first : Aborts text ctx made none) (second : Aborts text ctx more found) :
    Aborts text ctx (made ++ more) found := by
  induction made with
  | nil => exact second
  | cons visit rest ih =>
    cases first with
    | quiet calm behind => exact .quiet calm (ih behind)

/-- Nothing is visited behind a visit that reports an application error. -/
theorem eq_nil_of_reports {before after : List (Visit Ctx)} {visit : Visit Ctx}
    (aborts : Aborts text ctx made found) (parted : made = before ++ visit :: after)
    (report : visit.Reports text ctx code) : after = [] ∧ found = some code := by
  induction aborts generalizing before with
  | nil => cases List.append_eq_nil_iff.mp parted.symm |>.2
  | quiet calm _ ih =>
    rcases List.cons_eq_append_iff.mp parted with ⟨-, same⟩ | ⟨rest, -, later⟩
    · cases same
      exact (calm code report).elim
    · exact ih later
  | reported same =>
    rcases List.cons_eq_append_iff.mp parted with ⟨-, here⟩ | ⟨rest, -, later⟩
    · cases here
      exact ⟨rfl, congrArg some (same.code_eq report)⟩
    · cases List.append_eq_nil_iff.mp later.symm |>.2

theorem exists_last (aborts : Aborts text ctx made (some code)) :
    ∃ before last, made = before ++ [last] ∧ last.Reports text ctx code := by
  induction made with
  | nil => cases aborts
  | cons visit rest ih =>
    cases aborts with
    | quiet _ behind =>
      obtain ⟨before, last, rfl, report⟩ := ih behind
      exact ⟨visit :: before, last, rfl, report⟩
    | reported report => exact ⟨[], visit, rfl, report⟩

end Aborts

/-- The visit and those inside of it come to an end at the first application error, which is the
outcome of the visit. -/
def Visit.Stops (text : Bytes) (ctx : Ctx) (visit : Visit Ctx) : Prop :=
  Aborts text ctx visit.all visit.out.error?

/-- The same of a walk; `error?` gives the application error of its outcome. -/
def Walk.Stops {α : Type} (text : Bytes) (ctx : Ctx) (error? : α → Option ErrorCode)
    (walk : Walk Ctx α) : Prop :=
  Aborts text ctx (Visit.allIn walk.visits) (error? walk.out)

namespace Walk

theorem stops_single {visit : Visit Ctx} (stops : visit.Stops text ctx) :
    (single visit).Stops text ctx Reading.error? := by
  rw [Stops, visits_single, Visit.allIn, Visit.allIn, List.append_nil]
  exact stops

theorem stops_andThen {walk : Walk Ctx Reading} {next : Nat → Walk Ctx Reading}
    (stops : walk.Stops text ctx Reading.error?)
    (later : ∀ stop, (next stop).Stops text ctx Reading.error?) :
    (walk.andThen next).Stops text ctx Reading.error? := by
  unfold andThen
  split
  · next stop found =>
    rw [Stops, found] at stops
    rw [Stops, Visit.allIn_append]
    exact stops.append (later stop)
  · exact stops

theorem stops_orElse {walk : Walk Ctx Reading} {other : Unit → Walk Ctx Reading}
    (stops : walk.Stops text ctx Reading.error?)
    (later : (other ()).Stops text ctx Reading.error?) :
    (walk.orElse other).Stops text ctx Reading.error? := by
  unfold orElse
  split
  · next found =>
    rw [Stops, found] at stops
    rw [Stops, Visit.allIn_append]
    exact stops.append later
  · exact stops

private theorem error?_settle (min count pos : Nat) :
    (Reading.settle min count pos).error? = none := by
  unfold Reading.settle
  split <;> rfl

/-- A round that ends the walk with an outcome of its own or with one that is not an error. -/
private theorem stops_last {visit : Visit Ctx} {out : Reading} (stops : visit.Stops text ctx)
    (same : out.error? = visit.out.error?) :
    Stops text ctx Reading.error? (⟨[visit], out⟩ : Walk Ctx Reading) := by
  rw [Stops, same]
  exact stops_single stops

/-- A round behind which the walk goes on. -/
private theorem stops_cons {visit : Visit Ctx} {rest : Walk Ctx Reading}
    (stops : visit.Stops text ctx) (calm : visit.out.error? = none)
    (later : rest.Stops text ctx Reading.error?) :
    Stops text ctx Reading.error? (⟨visit :: rest.visits, rest.out⟩ : Walk Ctx Reading) := by
  rw [Visit.Stops, calm] at stops
  exact stops.append later

theorem stops_repeatFrom {visit : Nat → Visit Ctx} {min : Nat} {bounded : Bool}
    (each : ∀ pos, (visit pos).Stops text ctx) (rounds count pos : Nat) :
    (repeatFrom visit min bounded rounds count pos).Stops text ctx Reading.error? := by
  induction rounds generalizing count pos with
  | zero =>
    cases bounded with
    | true =>
      rw [repeatFrom, Stops, if_pos rfl, error?_settle]
      exact .nil
    | false => exact .nil
  | succ rounds ih =>
    rw [repeatFrom]
    cases found : (visit pos).out with
    | matched stop =>
      by_cases still : stop = pos
      · simp only [still, if_true]
        exact stops_last (each pos) (by rw [error?_settle, found]; rfl)
      · simp only [still, if_false]
        exact stops_cons (each pos) (by rw [found]; rfl) (ih (count + 1) stop)
    | noMatch => exact stops_last (each pos) (by rw [error?_settle, found]; rfl)
    | failed | endless => exact stops_last (each pos) (by rw [found])

theorem stops_seekFrom {visit : Nat → Visit Ctx} {inclusive : Bool} {missing : Reading}
    (each : ∀ pos, (visit pos).Stops text ctx) (calm : missing.error? = none) (more pos : Nat) :
    (seekFrom visit inclusive missing more pos).Stops text ctx Reading.error? := by
  induction more generalizing pos with
  | zero =>
    rw [seekFrom]
    cases found : (visit pos).out with
    | matched => exact stops_last (each pos) (by rw [found]; rfl)
    | noMatch => exact stops_last (each pos) (by rw [found, calm]; rfl)
    | failed | endless => exact stops_last (each pos) (by rw [found])
  | succ more ih =>
    rw [seekFrom]
    cases found : (visit pos).out with
    | matched => exact stops_last (each pos) (by rw [found]; rfl)
    | noMatch => exact stops_cons (each pos) (by rw [found]; rfl) (ih (pos + 1))
    | failed | endless => exact stops_last (each pos) (by rw [found])

end Walk

/-- Only what is called reports an application error. -/
theorem Leaf.error?_read {l : Leaf Ctx} (made : ∀ run, l ≠ .custom run) (pos : Nat) :
    (l.read text ctx pos).error? = none := by
  cases l with
  | custom run => exact (made run rfl).elim
  | never | always => rfl
  | text | textAnyCase | atEnd | skip =>
    simp only [Leaf.read]
    split <;> rfl
  | oneOf set =>
    simp only [Leaf.read]
    split
    · split <;> rfl
    · rfl
  | regex r =>
    simp only [Leaf.read]
    split <;> rfl

namespace Reader

/-- A reader that is not a call reports nothing itself. -/
private theorem stops_enter {reader : Reader Ctx} {pos : Nat} {walk : Walk Ctx Reading}
    (made : ∀ id run, reader ≠ .leaf id (.custom run))
    (stops : walk.Stops text ctx Reading.error?) : (enter text reader pos walk).Stops text ctx := by
  have calm (visit : Visit Ctx) (same : visit.reader = reader) (code : ErrorCode) :
      ¬ visit.Reports text ctx code := by
    rintro ⟨id, run, call, -⟩
    exact made id run (same.symm.trans call)
  unfold enter
  split
  · exact .quiet (calm _ rfl) .nil
  · exact .quiet (calm _ rfl) stops

private theorem stops_visit_leaf (id : Nat) (l : Leaf Ctx) (pos : Nat) :
    (visit text ctx (leaf id l) pos).Stops text ctx := by
  by_cases made : ∃ run, l = .custom run
  · obtain ⟨run, rfl⟩ := made
    rw [visit]
    unfold enter
    split
    · next behind =>
      refine .quiet (fun code report => ?_) .nil
      obtain ⟨-, -, -, inside, -⟩ := report
      exact Nat.not_lt.mpr inside behind
    · next inside =>
      simp only [Leaf.read, Visit.Stops, Visit.all, Visit.allIn]
      cases found : run text pos ctx with
      | failed code => exact .reported ⟨id, run, rfl, Nat.not_lt.mp inside, found⟩
      | matched | noMatch | endless =>
        refine .quiet (fun code report => ?_) .nil
        obtain ⟨_, _, same, -, failed⟩ := report
        cases same
        cases found.symm.trans failed
  · rw [visit]
    refine stops_enter (fun _ run same => made ⟨run, (leaf.inj same).2⟩) ?_
    rw [Walk.Stops, Leaf.error?_read fun run same => made ⟨run, same⟩]
    exact .nil

private theorem stops_visitAll {items : List (Reader Ctx)}
    (each : ∀ item ∈ items, ∀ pos, (visit text ctx item pos).Stops text ctx) (pos : Nat) :
    (visitAll text ctx items pos).Stops text ctx Reading.error? := by
  induction items generalizing pos with
  | nil => exact .nil
  | cons item rest ih =>
    rw [visitAll]
    refine Walk.stops_andThen (Walk.stops_single (each item List.mem_cons_self pos)) ?_
    exact ih fun other member => each other (List.mem_cons_of_mem _ member)

private theorem stops_visitAny {items : List (Reader Ctx)}
    (each : ∀ item ∈ items, ∀ pos, (visit text ctx item pos).Stops text ctx) (pos : Nat) :
    (visitAny text ctx items pos).Stops text ctx Reading.error? := by
  induction items with
  | nil => exact .nil
  | cons item rest ih =>
    rw [visitAny]
    refine Walk.stops_orElse (Walk.stops_single (each item List.mem_cons_self pos)) ?_
    exact ih fun other member => each other (List.mem_cons_of_mem _ member)

theorem stops_visit (reader : Reader Ctx) (pos : Nat) :
    (visit text ctx reader pos).Stops text ctx := by
  induction reader generalizing pos with
  | leaf id l => exact stops_visit_leaf id l pos
  | sequence id items ih =>
    rw [visit]
    exact stops_enter (by simp) (stops_visitAll ih pos)
  | alternation id items ih =>
    rw [visit]
    exact stops_enter (by simp) (stops_visitAny ih pos)
  | repetition id inner min max ih =>
    rw [visit]
    exact stops_enter (by simp) (Walk.stops_repeatFrom ih _ _ _)
  | optional id inner ih =>
    rw [visit]
    exact stops_enter (by simp) (Walk.stops_orElse (Walk.stops_single (ih pos)) .nil)
  | lookahead id inner ih =>
    rw [visit]
    exact stops_enter (by simp) (Walk.stops_andThen (Walk.stops_single (ih pos)) fun _ => .nil)
  | seek id inner inclusive openEnd ih =>
    rw [visit]
    exact stops_enter (by simp) (Walk.stops_seekFrom ih (by cases openEnd <;> rfl) _ _)

end Reader

namespace Branch

/-- The outcome of the rule of a branch, where nothing below the branch matches. -/
def ofRule (start stop : Nat) : Option Nat → Outcome
  | some rule => if start < stop then .matched rule stop else .noMatch
  | none => .noMatch

theorem error?_orElse_ofRule (outcome : Outcome) (start stop : Nat) (rule : Option Nat) :
    (outcome.orElse fun _ => ofRule start stop rule).error? = outcome.error? := by
  cases outcome with
  | noMatch =>
    cases rule with
    | none => rfl
    | some rule =>
      simp only [Outcome.orElse, ofRule]
      split <;> rfl
  | matched | failed | endless => rfl

mutual
/-- The visits that are made when a branch is tried, and the outcome. -/
def walk (text : Bytes) (ctx : Ctx) (start pos : Nat) : Branch Ctx → Walk Ctx Outcome
  | ⟨_, readers, children, rule, owner⟩ =>
    let path := Reader.visitAll text ctx readers pos
    match path.out with
    | .noMatch => ⟨path.visits, .noMatch⟩
    | .failed code => ⟨path.visits, .failed owner code⟩
    | .endless => ⟨path.visits, .endless⟩
    | .matched stop =>
      let below := walkAll text ctx start stop children
      ⟨path.visits ++ below.visits, below.out.orElse fun _ => ofRule start stop rule⟩
/-- The visits that are made when branches are tried in order, and the outcome. -/
def walkAll (text : Bytes) (ctx : Ctx) (start pos : Nat) : List (Branch Ctx) → Walk Ctx Outcome
  | [] => ⟨[], .noMatch⟩
  | branch :: rest =>
    let first := walk text ctx start pos branch
    match first.out with
    | .noMatch =>
      let others := walkAll text ctx start pos rest
      ⟨first.visits ++ others.visits, others.out⟩
    | _ => first
end

private theorem out_walkAll_of {start pos : Nat} {branches : List (Branch Ctx)}
    (each : ∀ branch ∈ branches,
      (walk text ctx start pos branch).out = attempt text ctx start pos branch) :
    (walkAll text ctx start pos branches).out = attemptAll text ctx start pos branches := by
  induction branches with
  | nil => rfl
  | cons branch rest ih =>
    rw [walkAll, attemptAll, ← each branch List.mem_cons_self]
    cases found : (walk text ctx start pos branch).out with
    | noMatch => exact ih fun other member => each other (List.mem_cons_of_mem _ member)
    | matched | failed | endless => exact found

private theorem out_walk (start pos : Nat) (branch : Branch Ctx) :
    (walk text ctx start pos branch).out = attempt text ctx start pos branch := by
  induction branch generalizing pos with
  | mk id readers children completed owner ih =>
    rw [walk, attempt, ← Reader.out_visitAll]
    cases (Reader.visitAll text ctx readers pos).out with
    | matched stop =>
      simp only
      rw [out_walkAll_of fun child member => ih child member stop]
      rfl
    | noMatch | failed | endless => rfl

theorem out_walkAll (start pos : Nat) (branches : List (Branch Ctx)) :
    (walkAll text ctx start pos branches).out = attemptAll text ctx start pos branches :=
  out_walkAll_of fun branch _ => out_walk start pos branch

private theorem stops_walkAll_of {start pos : Nat} {branches : List (Branch Ctx)}
    (each : ∀ branch ∈ branches, (walk text ctx start pos branch).Stops text ctx Outcome.error?) :
    (walkAll text ctx start pos branches).Stops text ctx Outcome.error? := by
  induction branches with
  | nil => exact .nil
  | cons branch rest ih =>
    have first := each branch List.mem_cons_self
    rw [walkAll]
    split
    · next found =>
      rw [Walk.Stops, found] at first
      rw [Walk.Stops, Visit.allIn_append]
      exact first.append (ih fun other member => each other (List.mem_cons_of_mem _ member))
    · exact first

private theorem stops_walk (start pos : Nat) (branch : Branch Ctx) :
    (walk text ctx start pos branch).Stops text ctx Outcome.error? := by
  induction branch generalizing pos with
  | mk id readers children completed owner ih =>
    have path : (Reader.visitAll text ctx readers pos).Stops text ctx Reading.error? :=
      Reader.stops_visitAll (fun item _ => Reader.stops_visit item) pos
    rw [Walk.Stops] at path
    rw [walk]
    cases found : (Reader.visitAll text ctx readers pos).out with
    | matched stop =>
      rw [found] at path
      have below := stops_walkAll_of fun child member => ih child member stop
      simp only [Walk.Stops, Visit.allIn_append, error?_orElse_ofRule]
      exact path.append below
    | noMatch | failed | endless =>
      rw [found] at path
      exact path

theorem stops_walkAll (start pos : Nat) (branches : List (Branch Ctx)) :
    (walkAll text ctx start pos branches).Stops text ctx Outcome.error? :=
  stops_walkAll_of fun branch _ => stops_walk start pos branch

end Branch

namespace Scan

/-- A scan with the visits that are made on the way. -/
def walk (lexicon : Lexicon Ctx) (state : StreamState) (ctx : Ctx) (streaming : Bool)
    (progress : Progress) : Walk Ctx Report :=
  if progress.cursor < state.chunk.size then
    let tried := Branch.walkAll state.chunk ctx progress.cursor progress.cursor
      (lexicon.forest.roots progress.stage)
    match found : tried.out with
    | .matched rule stop =>
      have : progress.cursor < stop :=
        Branch.lt_of_attemptAll_eq_matched _ _ ((Branch.out_walkAll _ _ _).symm.trans found)
      let m : Match := ⟨state.chunk, progress.cursor, stop - progress.cursor, progress.stage⟩
      match confirm lexicon state.chunkOffset progress with
      | .error fault => ⟨tried.visits, giveUp progress fault⟩
      | .ok events =>
        match lexicon.nextStage rule m ctx with
        | .error fault => ⟨tried.visits, giveUp { progress with events } fault⟩
        | .ok next =>
          let later := walk lexicon state ctx streaming (accept progress events rule stop next)
          ⟨tried.visits ++ later.visits, later.out⟩
    | .failed owner code => ⟨tried.visits, fail lexicon state progress owner code⟩
    | .noMatch => ⟨tried.visits, finish lexicon state streaming progress⟩
    | .endless => ⟨tried.visits, giveUp progress .endless⟩
  else ⟨[], finish lexicon state streaming progress⟩
termination_by state.chunk.size - progress.cursor
decreasing_by simp only [accept]; omega

variable {lexicon : Lexicon Ctx} {state : StreamState} {ctx : Ctx} {streaming : Bool}

/-- What a scan reports is reported by the same steps, with or without the visits. -/
theorem out_walk (progress : Progress) : (walk lexicon state ctx streaming progress).out =
    run lexicon state ctx streaming progress := by
  fun_induction walk lexicon state ctx streaming progress with
  | case1 progress left tried rule stop found _ fault confirmed =>
    have matched := (Branch.out_walkAll _ _ _).symm.trans found
    rw [run_of_matched left matched, confirmed]
  | case2 progress left tried rule stop found _ m events confirmed fault follows =>
    have matched := (Branch.out_walkAll _ _ _).symm.trans found
    rw [run_of_matched left matched, confirmed]
    simp only [m] at follows
    simp only [follows]
  | case3 progress left tried rule stop found _ m events confirmed next follows later ih =>
    have matched := (Branch.out_walkAll _ _ _).symm.trans found
    rw [run_of_matched left matched, confirmed]
    simp only [m] at follows
    simp only [follows]
    exact ih
  | case4 progress left tried owner code found =>
    have failed := (Branch.out_walkAll _ _ _).symm.trans found
    rw [run_of_failed left failed]
  | case5 progress left tried found =>
    have none := (Branch.out_walkAll _ _ _).symm.trans found
    rw [run_of_noMatch left none]
  | case6 progress left tried found =>
    have endless := (Branch.out_walkAll _ _ _).symm.trans found
    rw [run_of_endless left endless]
  | case7 progress none => rw [run_of_end none]

/-- No event is an application error. -/
def Report.Calm (report : Report) : Prop := ∀ event ∈ report.events, event.isError = false

/-- The last event carries the application error, and no other event is one. -/
def Report.EndsWith (report : Report) (code : ErrorCode) : Prop :=
  ∃ front tokenType offset, report.events.toList = front ++ [Event.error tokenType offset code.value] ∧
    ∀ event ∈ front, event.isError = false

/-- What the scan has found so far is no application error, and the token that is held back ends at
the cursor. -/
structure Progress.Steady (progress : Progress) : Prop where
  calm : ∀ event ∈ progress.events, event.isError = false
  behind : ∀ p, progress.pending = some p → p.start ≤ p.stop ∧ p.stop = progress.cursor

namespace Progress.Steady

variable {progress : Progress} (steady : progress.Steady)

include steady

theorem confirm_ok {base : Nat} {events : Array Event}
    (confirmed : confirm lexicon base progress = .ok events) :
    ∀ event ∈ events, event.isError = false := by
  unfold confirm at confirmed
  split at confirmed
  · next p _ =>
    rw [tokenEvent_eq] at confirmed
    split at confirmed
    · cases confirmed
      intro event member
      rcases Array.mem_push.mp member with earlier | rfl
      · exact steady.calm event earlier
      · rfl
    · cases confirmed
  · cases confirmed
    exact steady.calm

theorem confirm_error {base : Nat} {fault : Fault}
    (confirmed : confirm lexicon base progress = .error fault) :
    fault = .overflow ∧ positionBound ≤ base + progress.cursor := by
  unfold confirm at confirmed
  split at confirmed
  · next p pending =>
    have behind := steady.behind p pending
    rw [tokenEvent_eq] at confirmed
    split at confirmed
    · cases confirmed
    · next large =>
      cases confirmed
      simp only [tokenOf, Event.fits, Bool.and_eq_true, decide_eq_true_eq] at large
      exact ⟨rfl, by omega⟩
  · cases confirmed

private theorem conclude_eq : conclude lexicon state progress =
    confirm lexicon state.chunkOffset progress >>= fun events =>
      if progress.cursor < state.chunk.size then
        return events.push (.unrecognized (← positionBehind state.chunkOffset progress.cursor))
      else pure events := by
  unfold conclude confirm
  cases pending : progress.pending with
  | none => rfl
  | some p =>
    simp only
    rw [(steady.behind p pending).2]

theorem conclude_ok {events : Array Event}
    (concluded : conclude lexicon state progress = .ok events) :
    ∀ event ∈ events, event.isError = false := by
  rw [steady.conclude_eq] at concluded
  cases confirmed : confirm lexicon state.chunkOffset progress with
  | error => cases confirmed ▸ concluded
  | ok tokens =>
    have calm := steady.confirm_ok confirmed
    rw [confirmed] at concluded
    change (if _ then _ else _) = Except.ok events at concluded
    split at concluded
    · rw [positionBehind] at concluded
      split at concluded
      · cases concluded
        intro event member
        rcases Array.mem_push.mp member with earlier | rfl
        · exact calm event earlier
        · rfl
      · cases concluded
    · cases concluded
      exact calm

theorem finish_calm : (finish lexicon state streaming progress).Calm := by
  unfold finish
  split
  · exact steady.calm
  · split
    · next events concluded => exact steady.conclude_ok concluded
    · exact steady.calm

theorem accept {base rule stop : Nat} {events : Array Event} {next : Option String}
    (confirmed : confirm lexicon base progress = .ok events) (further : progress.cursor < stop) :
    (Scan.accept progress events rule stop next).Steady := by
  refine ⟨steady.confirm_ok confirmed, ?_⟩
  rintro p ⟨⟩
  exact ⟨Nat.le_of_lt further, rfl⟩

/-- At an application error the report ends, unless the error has no position. -/
theorem fail_endsWith (owner : Nat) (code : ErrorCode) (left : progress.cursor < state.chunk.size) :
    (fail lexicon state progress owner code).EndsWith code ∨
      (fail lexicon state progress owner code).Calm ∧
        (fail lexicon state progress owner code).result = .error .overflow ∧
        positionBound < state.chunkOffset + state.chunk.size := by
  unfold fail
  split
  · next fault confirmed =>
    obtain ⟨rfl, large⟩ := steady.confirm_error confirmed
    exact .inr ⟨steady.calm, rfl, by omega⟩
  · next events confirmed =>
    have calm := steady.confirm_ok confirmed
    rw [positionBehind]
    by_cases fits : state.chunkOffset + progress.cursor < positionBound
    · rw [if_pos fits]
      refine .inl ⟨events.toList, lexicon.tokenType owner, state.chunkOffset + progress.cursor,
        by simp, fun event member => calm event (by simpa using member)⟩
    · rw [if_neg fits]
      exact .inr ⟨calm, rfl, by omega⟩

end Progress.Steady

/-- Where the rules of a stage are tried, the visits come to an end with the outcome. -/
private theorem stopped {start : Nat} {branches : List (Branch Ctx)} {outcome : Outcome}
    (found : (Branch.walkAll state.chunk ctx start start branches).out = outcome) :
    Aborts state.chunk ctx
      (Visit.allIn (Branch.walkAll state.chunk ctx start start branches).visits) outcome.error? :=
  found ▸ Branch.stops_walkAll start start branches

/-- A scan comes to an end at the first application error, and so does its report. -/
theorem walk_aborts (progress : Progress) (steady : progress.Steady) :
    ∃ found, Aborts state.chunk ctx
        (Visit.allIn (walk lexicon state ctx streaming progress).visits) found ∧
      match found with
      | none => (run lexicon state ctx streaming progress).Calm
      | some code => (run lexicon state ctx streaming progress).EndsWith code ∨
        (run lexicon state ctx streaming progress).Calm ∧
          (run lexicon state ctx streaming progress).result = .error .overflow ∧
          positionBound < state.chunkOffset + state.chunk.size := by
  rw [← out_walk]
  fun_induction walk lexicon state ctx streaming progress with
  | case1 progress left tried rule stop found _ fault confirmed =>
    exact ⟨none, stopped found, steady.calm⟩
  | case2 progress left tried rule stop found _ m events confirmed fault follows =>
    exact ⟨none, stopped found, steady.confirm_ok confirmed⟩
  | case3 progress left tried rule stop found further m events confirmed next follows later ih =>
    obtain ⟨code?, aborts, tells⟩ := ih (steady.accept confirmed further)
    refine ⟨code?, ?_, tells⟩
    rw [Visit.allIn_append]
    exact (stopped found).append aborts
  | case4 progress left tried owner code found =>
    exact ⟨some code, stopped found, steady.fail_endsWith owner code left⟩
  | case5 progress left tried found => exact ⟨none, stopped found, steady.finish_calm⟩
  | case6 progress left tried found => exact ⟨none, stopped found, steady.calm⟩
  | case7 progress none => exact ⟨_, .nil, steady.finish_calm⟩

end Scan

/-- A scan of the chunk of a stream, with the visits that are made on the way. -/
def Lexicon.scanWalk (lexicon : Lexicon Ctx) (state : StreamState) (ctx : Ctx) (streaming : Bool) :
    Walk Ctx Scan.Report :=
  Scan.walk lexicon state ctx streaming { cursor := state.offset, stage := state.stage }

theorem Lexicon.scanWalk_aborts (lexicon : Lexicon Ctx) (state : StreamState) (ctx : Ctx)
    (streaming : Bool) : ∃ found,
      Aborts state.chunk ctx (Visit.allIn (lexicon.scanWalk state ctx streaming).visits) found ∧
      match found with
      | none => (lexicon.scan state ctx streaming).Calm
      | some code => (lexicon.scan state ctx streaming).EndsWith code ∨
        (lexicon.scan state ctx streaming).Calm ∧
          (lexicon.scan state ctx streaming).result = .error .overflow ∧
          positionBound < state.chunkOffset + state.chunk.size :=
  Scan.walk_aborts _ ⟨by simp, by simp⟩

theorem Scan.Report.Calm.not_mem {report : Scan.Report} (calm : report.Calm) {event : Event}
    (error : event.isError = true) : event ∉ report.events := by
  intro member
  rw [calm event member] at error
  cases error

/-- A call that reports an application error is the last visit that is made. The reading in which it
is made has its code for an outcome, and only such a call gives a reading that outcome. In a scan the
event that carries the code is the last one and the only one of its kind, and there is no such event
without such a call. A report can only break off before it, at a position that no stream has. -/
theorem application_error_is_last (ctx : Ctx) :
    (∀ (text : Bytes) (reader : Reader Ctx) (offset : Nat),
      (reader.visit text ctx offset).out = reader.read text ctx offset ∧
      (∀ before made after code, (reader.visit text ctx offset).all = before ++ made :: after →
        made.Reports text ctx code → after = [] ∧ reader.read text ctx offset = .failed code) ∧
      ∀ code, reader.read text ctx offset = .failed code →
        ∃ before made, (reader.visit text ctx offset).all = before ++ [made] ∧
          made.Reports text ctx code) ∧
    ∀ (lexicon : Lexicon Ctx) (state : StreamState) (streaming : Bool),
      let walk := lexicon.scanWalk state ctx streaming
      let report := lexicon.scan state ctx streaming
      walk.out = report ∧
      (∀ before made after code, Visit.allIn walk.visits = before ++ made :: after →
        made.Reports state.chunk ctx code → after = [] ∧
          (report.EndsWith code ∨ report.Calm ∧ report.result = .error .overflow ∧
            positionBound < state.chunkOffset + state.chunk.size)) ∧
      ∀ event ∈ report.events, event.isError = true →
        ∃ before made code, Visit.allIn walk.visits = before ++ [made] ∧
          made.Reports state.chunk ctx code ∧ report.EndsWith code := by
  refine ⟨fun text reader offset => ?_, fun lexicon state streaming => ?_⟩
  · have stops : Aborts text ctx _ _ := Reader.stops_visit reader offset
    rw [Reader.out_visit] at stops
    refine ⟨Reader.out_visit reader offset, fun before made after code parted report => ?_, ?_⟩
    · obtain ⟨last, found⟩ := stops.eq_nil_of_reports parted report
      refine ⟨last, ?_⟩
      cases reading : reader.read text ctx offset <;> simp_all [Reading.error?]
    · intro code failed
      rw [failed] at stops
      exact stops.exists_last
  · intro walk report
    obtain ⟨found, aborts, tells⟩ := lexicon.scanWalk_aborts state ctx streaming
    refine ⟨Scan.out_walk _, fun before made after code parted reports => ?_, ?_⟩
    · obtain ⟨last, rfl⟩ := aborts.eq_nil_of_reports parted reports
      exact ⟨last, tells⟩
    · intro event member error
      cases found with
      | none => exact (tells.not_mem error member).elim
      | some code =>
        obtain ⟨before, made, parted, reports⟩ := aborts.exists_last
        rcases tells with last | ⟨calm, -⟩
        · exact ⟨before, made, code, parted, reports, last⟩
        · exact (calm.not_mem error member).elim

/-- An error in a loop in a sequence: the loop does not take it for the end of its rounds, and the
alternation does not go on to its second item. -/
theorem application_error_is_last_in_loop :
    let failing : Reader Unit := .leaf 2 (.custom fun _ _ _ => .failed ⟨-7, by decide⟩)
    let word : Reader Unit := .sequence 4 [.text 1 [97], .repetition 3 failing 0 none]
    let reader : Reader Unit := .alternation 6 [word, .text 5 [97]]
    let rules : List (Rule Unit) := [{ tokenType := "word", reader }]
    let lexicon : Lexicon Unit := { rules := rules.toArray, forest := .ofRules rules none }
    let report := lexicon.scan { chunk := #[97] } () true
    (∃ before made, (reader.visit #[97] () 0).all = before ++ [made] ∧
      made.Reports #[97] () ⟨-7, by decide⟩) ∧
    report.events = #[.error "word" 0 (-7)] ∧ ∃ code, report.EndsWith code := by
  intro failing word reader rules lexicon report
  obtain ⟨readings, scans⟩ := application_error_is_last ()
  have events : report.events = #[.error "word" 0 (-7)] := by
    have failed : lexicon.outcome #[97] () 0 none = .failed 0 ⟨-7, by decide⟩ := rfl
    change (Scan.run lexicon { chunk := #[97] } () true { cursor := 0, stage := none }).events = _
    rw [Scan.run_of_failed (by decide) failed]
    rfl
  obtain ⟨-, -, last⟩ := scans lexicon { chunk := #[97] } true
  have member : Event.error "word" 0 (-7) ∈ report.events := by simp [events]
  obtain ⟨before, made, code, -, -, found⟩ := last _ member rfl
  exact ⟨(readings #[97] reader 0).2.2 _ rfl, events, code, found⟩

end StagedLexer
