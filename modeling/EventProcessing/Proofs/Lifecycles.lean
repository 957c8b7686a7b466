import EventProcessing.Lifecycle
import EventProcessing.Proofs.Execution
import EventProcessing.Proofs.Ranking

/-! The order in which a lifecycle sets up, starts and shuts down its members. Members are told
apart by the number of their registration, which goes with a member wherever sorting puts it. -/

namespace EventProcessing

variable {σ α : Type}

namespace Member

lemma phase_of_setUp {configuration : Configuration σ} {member member' : Member σ} {depth : ℕ}
    {s s' : System σ} (h : member.setUp configuration depth s = some (member', s')) :
    member'.phase = member.phase := by
  cases member with
  | plain module | processing module =>
    obtain ⟨_, _, -, h⟩ := Run.bind_eq_some.mp h
    obtain ⟨rfl, -⟩ := Run.pure_eq_some.mp h
    rfl

lemma phase_of_start {member member' : Member σ} {outcome : Outcome} {depth : ℕ} {s s' : System σ}
    (h : member.start depth s = some ((outcome, member'), s')) : member'.phase = member.phase := by
  cases member with
  | plain module | processing module =>
    obtain ⟨_, _, -, h⟩ := Run.bind_eq_some.mp h
    obtain ⟨he, -⟩ := Run.pure_eq_some.mp h
    cases he
    rfl

lemma phase_of_shutDown {member member' : Member σ} {outcome : Outcome} {depth : ℕ}
    {s s' : System σ} (h : member.shutDown depth s = some ((outcome, member'), s')) :
    member'.phase = member.phase := by
  cases member with
  | plain module | processing module =>
    obtain ⟨_, _, -, h⟩ := Run.bind_eq_some.mp h
    obtain ⟨he, -⟩ := Run.pure_eq_some.mp h
    cases he
    rfl

end Member

/-- One call on a member: what it found the member to be, with the member's number, and what it
left of it. -/
structure Visit (σ α : Type) where
  before : Member σ × ℕ
  result : α
  after : Member σ

inductive Visits (act : Member σ → Run σ (α × Member σ)) (depth : ℕ) :
    List (Visit σ α) → System σ → System σ → Prop
  | nil (s : System σ) : Visits act depth [] s s
  | cons {visit : Visit σ α} {rest : List (Visit σ α)} {s middle s' : System σ}
      (first : act visit.before.1 depth s = some ((visit.result, visit.after), middle))
      (others : Visits act depth rest middle s') : Visits act depth (visit :: rest) s s'

namespace Visits

variable {act : Member σ → Run σ (α × Member σ)} {depth : ℕ} {visits : List (Visit σ α)}
  {s s' : System σ}

lemma phases (h : Visits act depth visits s s')
    (hact : ∀ member depth s result member' s',
      act member depth s = some ((result, member'), s') → member'.phase = member.phase) :
    (visits.map Visit.after).map Member.phase =
      ((visits.map Visit.before).map Prod.fst).map Member.phase := by
  induction h with
  | nil s => rfl
  | cons first others ih => simp only [List.map_cons, hact _ _ _ _ _ _ first, ih]

end Visits

def FirstFailure (results : List Outcome) (outcome : Outcome) : Prop :=
  (outcome = .ok () ∧ ∀ result ∈ results, result = .ok ()) ∨
    ∃ earlier failure later, results = earlier ++ .error failure :: later ∧
      (∀ result ∈ earlier, result = .ok ()) ∧ outcome = .error failure

namespace FirstFailure

variable {results : List Outcome} {outcome : Outcome} {failure : Failure}

lemma nil_iff : FirstFailure [] outcome ↔ outcome = .ok () := by
  simp [FirstFailure]

lemma cons_ok_iff : FirstFailure (.ok () :: results) outcome ↔ FirstFailure results outcome := by
  constructor
  · rintro (⟨ho, hall⟩ | ⟨earlier, failure, later, he, hearlier, ho⟩)
    · exact .inl ⟨ho, fun result hm => hall result (List.mem_cons_of_mem _ hm)⟩
    · cases earlier with
      | nil => cases he
      | cons first earlier =>
        obtain ⟨-, he⟩ := List.cons.inj he
        exact .inr ⟨earlier, failure, later, he,
          fun result hm => hearlier result (List.mem_cons_of_mem _ hm), ho⟩
  · rintro (⟨ho, hall⟩ | ⟨earlier, failure, later, rfl, hearlier, ho⟩)
    · exact .inl ⟨ho, List.forall_mem_cons.mpr ⟨rfl, hall⟩⟩
    · exact .inr ⟨.ok () :: earlier, failure, later, rfl,
        List.forall_mem_cons.mpr ⟨rfl, hearlier⟩, ho⟩

lemma cons_error_iff :
    FirstFailure (.error failure :: results) outcome ↔ outcome = .error failure := by
  constructor
  · rintro (⟨-, hall⟩ | ⟨earlier, failure', later, he, hearlier, ho⟩)
    · cases hall _ List.mem_cons_self
    · cases earlier with
      | nil =>
        cases he
        exact ho
      | cons first earlier =>
        obtain ⟨rfl, -⟩ := List.cons.inj he
        cases hearlier _ List.mem_cons_self
  · rintro rfl
    exact .inr ⟨[], failure, results, rfl, List.forall_mem_nil _, rfl⟩

lemma iff_eq : FirstFailure results outcome ↔ outcome = firstFailure results := by
  induction results with
  | nil => exact nil_iff
  | cons result rest ih =>
    cases result with
    | ok _ => exact cons_ok_iff.trans ih
    | error failure => exact cons_error_iff

end FirstFailure

lemma firstFailure_eq_ok {results : List Outcome} :
    firstFailure results = .ok () ↔ ∀ result ∈ results, result = .ok () := by
  induction results with
  | nil => simp [firstFailure]
  | cons result rest ih =>
    cases result with
    | ok _ => rw [firstFailure, ih, List.forall_mem_cons, and_iff_right rfl]
    | error failure => simp [firstFailure]

namespace Lifecycle

section Order

def rank (member : Member σ × ℕ) : Int × ℕ := (member.1.phase, member.2)

def byPhase (members : List (Member σ × ℕ)) : List (Member σ × ℕ) :=
  members.mergeSort fun a b => decide (a.1.phase ≤ b.1.phase)

def phaseLe (a b : Int × ℕ) : Bool := decide (a.1 ≤ b.1)

lemma phaseLe_trans (a b c : Int × ℕ) (hab : phaseLe a b = true) (hbc : phaseLe b c = true) :
    phaseLe a c = true := by
  simp only [phaseLe, decide_eq_true_eq] at hab hbc ⊢
  exact hab.trans hbc

lemma phaseLe_total (a b : Int × ℕ) : (phaseLe a b || phaseLe b a) = true := by
  simp only [phaseLe, Bool.or_eq_true, decide_eq_true_eq]
  exact le_total _ _

lemma map_rank_byPhase (members : List (Member σ × ℕ)) :
    (byPhase members).map rank = (members.map rank).mergeSort phaseLe :=
  List.map_mergeSort fun _ _ _ _ => rfl

lemma map_fst_byPhase (members : List (Member σ × ℕ)) :
    (byPhase members).map Prod.fst = sort (members.map Prod.fst) :=
  List.map_mergeSort fun _ _ _ _ => rfl

lemma map_rank_zip (members : List (Member σ)) (numbers : List ℕ) :
    (members.zip numbers).map rank = (members.map Member.phase).zip numbers := by
  rw [List.zip_map_left]
  rfl

lemma map_rank_zipIdx_register (registered : List (Member σ)) (member : Member σ) :
    (registered ++ [member]).zipIdx.map rank =
      registered.zipIdx.map rank ++ [(member.phase, registered.length)] := by
  rw [List.zipIdx_append, List.map_append]
  simp [rank]

lemma pairwise_zipIdx (registered : List (Member σ)) :
    (registered.zipIdx.map rank).Pairwise fun a b => a.2 < b.2 := by
  have h : (registered.zipIdx.map Prod.snd).Pairwise (· < ·) := by
    rw [List.zipIdx_map_snd]
    exact List.pairwise_lt_range'
  exact List.pairwise_map.mpr (List.pairwise_map.mp h)

lemma pairwise_byPhase (registered : List (Member σ)) :
    (byPhase registered.zipIdx).Pairwise fun a b =>
      a.1.phase < b.1.phase ∨ a.1.phase = b.1.phase ∧ a.2 < b.2 := by
  have hsorted := List.pairwise_mergeSort phaseLe_trans phaseLe_total (registered.zipIdx.map rank)
  have hlex : ((registered.zipIdx.map rank).mergeSort phaseLe).Pairwise fun a b =>
      a.1 < b.1 ∨ a.1 = b.1 ∧ a.2 < b.2 := by
    refine List.pairwise_iff_forall_sublist.mpr fun {a b} hs => ?_
    have hle : a.1 ≤ b.1 :=
      of_decide_eq_true (List.pairwise_iff_forall_sublist.mp hsorted hs)
    refine hle.lt_or_eq.imp_right fun heq => ⟨heq, ?_⟩
    -- Both are in one phase, and sorting leaves the order of a phase as it was.
    have hpart := hs.filter fun c => phaseLe c a && phaseLe a c
    rw [filter_mergeSort phaseLe_trans phaseLe_total] at hpart
    simp only [phaseLe, heq, le_refl, decide_true, Bool.and_self, List.filter_cons_of_pos,
      List.filter_nil] at hpart
    exact List.pairwise_iff_forall_sublist.mp (pairwise_zipIdx registered)
      (hpart.trans List.filter_sublist)
  rw [← map_rank_byPhase] at hlex
  exact List.pairwise_map.mp hlex

end Order

/-- What calls make of a lifecycle: the members as they were registered, the lifecycle, the numbers
of its members as they stand there, and whether it was set up since the last registration. -/
inductive Course : List (Member σ) → Lifecycle σ → List ℕ → Bool → Prop
  | new : Course [] {} [] false
  | register {registered : List (Member σ)} {lifecycle : Lifecycle σ} {numbers : List ℕ}
      {settled : Bool} (before : Course registered lifecycle numbers settled) (member : Member σ) :
      Course (registered ++ [member]) (lifecycle.register member) (numbers ++ [registered.length])
        false
  | setUp {registered : List (Member σ)} {lifecycle lifecycle' : Lifecycle σ} {numbers : List ℕ}
      {settled : Bool} {configuration : Configuration σ} {depth : ℕ} {s s' : System σ}
      (before : Course registered lifecycle numbers settled)
      (call : lifecycle.setUp configuration depth s = some (lifecycle', s')) :
      Course registered lifecycle' ((byPhase (lifecycle.members.zip numbers)).map Prod.snd) true
  | start {registered : List (Member σ)} {lifecycle lifecycle' : Lifecycle σ} {numbers : List ℕ}
      {settled : Bool} {depth : ℕ} {outcome : Outcome} {s s' : System σ}
      (before : Course registered lifecycle numbers settled)
      (call : lifecycle.start depth s = some ((outcome, lifecycle'), s')) :
      Course registered lifecycle' numbers settled
  | shutDown {registered : List (Member σ)} {lifecycle lifecycle' : Lifecycle σ}
      {numbers : List ℕ} {settled : Bool} {depth : ℕ} {outcome : Outcome} {s s' : System σ}
      (before : Course registered lifecycle numbers settled)
      (call : lifecycle.shutDown depth s = some ((outcome, lifecycle'), s')) :
      Course registered lifecycle' numbers settled

section Calls

variable {depth : ℕ} {s s' : System σ} {members : List (Member σ)}
  {numbered : List (Member σ × ℕ)}

def visitToSetUp (configuration : Configuration σ) (member : Member σ) :
    Run σ (Unit × Member σ) := do
  return ((), ← member.setUp configuration)

def visitToShutDown (member : Member σ) : Run σ (Outcome × Member σ) := do
  let (outcome, member) ← member.shutDown
  if let .error failure := outcome then
    Run.trace (.event .error "module failed to shut down"
      [("phase", toString member.phase), ("error", failure.message)])
  return (outcome, member)

lemma visitToSetUp_eq_some {configuration : Configuration σ} {member member' : Member σ}
    {result : Unit} :
    visitToSetUp configuration member depth s = some ((result, member'), s') ↔
      member.setUp configuration depth s = some (member', s') := by
  constructor
  · intro h
    obtain ⟨_, _, hset, h⟩ := Run.bind_eq_some.mp h
    obtain ⟨he, rfl⟩ := Run.pure_eq_some.mp h
    cases he
    exact hset
  · exact fun hset => Run.bind_eq_some.mpr ⟨member', s', hset, rfl⟩

lemma phase_of_visitToSetUp {configuration : Configuration σ} (member : Member σ) (depth : ℕ)
    (s : System σ) (result : Unit) (member' : Member σ) (s' : System σ)
    (h : visitToSetUp configuration member depth s = some ((result, member'), s')) :
    member'.phase = member.phase :=
  Member.phase_of_setUp (visitToSetUp_eq_some.mp h)

lemma visitToShutDown_eq_some {member member' : Member σ} {outcome : Outcome} :
    visitToShutDown member depth s = some ((outcome, member'), s') ↔
      ∃ middle, member.shutDown depth s = some ((outcome, member'), middle) ∧
        s' = match outcome with
          | .ok () => middle
          | .error failure => middle.addTrace (.event .error "module failed to shut down"
              [("phase", toString member'.phase), ("error", failure.message)]) := by
  constructor
  · intro h
    obtain ⟨⟨told, left⟩, middle, hshut, h⟩ := Run.bind_eq_some.mp h
    cases told with
    | ok _ | error failure =>
      cases h
      exact ⟨_, hshut, rfl⟩
  · rintro ⟨middle, hshut, rfl⟩
    refine Run.bind_eq_some.mpr ⟨_, middle, hshut, ?_⟩
    cases outcome with
    | ok _ | error failure => rfl

lemma phase_of_visitToShutDown (member : Member σ) (depth : ℕ) (s : System σ) (outcome : Outcome)
    (member' : Member σ) (s' : System σ)
    (h : visitToShutDown member depth s = some ((outcome, member'), s')) :
    member'.phase = member.phase :=
  let ⟨_, hshut, _⟩ := visitToShutDown_eq_some.mp h
  Member.phase_of_shutDown hshut

/-- The loop of every call on all members: they are visited in turn, up to the first whose answer
ends it. -/
def visitEach (act : Member σ → Run σ (α × Member σ)) (ends : α → Bool) :
    List (Member σ) → Run σ (List α × List (Member σ))
  | [] => return ([], [])
  | member :: rest => do
    let (answer, member) ← act member
    if ends answer then
      return ([answer], member :: rest)
    let (answers, rest) ← visitEach act ends rest
    return (answer :: answers, member :: rest)

section Loop

variable {act : Member σ → Run σ (α × Member σ)} {ends : α → Bool} {visit : Visit σ α}
  {visits : List (Visit σ α)} {rest : List (Member σ × ℕ)} {answers : List α}
  {members' : List (Member σ)}

/-- No visit but the last ends the loop, and when none does, nobody is left. -/
def Ended (ends : α → Bool) (visits : List (Visit σ α)) (rest : List (Member σ × ℕ)) : Prop :=
  (∀ visit ∈ visits.dropLast, ends visit.result = false) ∧
    ((∀ visit ∈ visits, ends visit.result = false) → rest = [])

lemma ended_nil_iff : Ended ends ([] : List (Visit σ α)) rest ↔ rest = [] := by
  simp [Ended]

lemma ended_cons_iff_of_ends (h : ends visit.result = true) :
    Ended ends (visit :: visits) rest ↔ visits = [] := by
  cases visits <;> simp [Ended, h]

lemma ended_cons_iff_of_goes (h : ends visit.result = false) :
    Ended ends (visit :: visits) rest ↔ Ended ends visits rest := by
  cases visits <;> simp [Ended, h]

lemma visitEach_eq_some (hm : numbered.map Prod.fst = members) :
    visitEach act ends members depth s = some ((answers, members'), s') ↔
      ∃ visits rest, Visits act depth visits s s' ∧
        visits.map Visit.before ++ rest = numbered ∧
        members' = visits.map Visit.after ++ rest.map Prod.fst ∧
        answers = visits.map Visit.result ∧ Ended ends visits rest := by
  subst hm
  induction numbered generalizing s answers members' with
  | nil =>
    constructor
    · intro h
      obtain ⟨he, rfl⟩ := Run.pure_eq_some.mp h
      cases he
      exact ⟨[], [], .nil s, rfl, rfl, rfl, ended_nil_iff.mpr rfl⟩
    · rintro ⟨visits, rest, hv, hb, rfl, rfl, -⟩
      obtain ⟨hvisits, rfl⟩ := List.append_eq_nil_iff.mp hb
      obtain rfl := List.map_eq_nil_iff.mp hvisits
      cases hv
      rfl
  | cons member others ih =>
    rw [List.map_cons, visitEach, Run.bind_eq_some]
    constructor
    · rintro ⟨⟨answer, after⟩, middle, hfirst, h⟩
      cases hends : ends answer with
      | true =>
        simp only [hends, if_true] at h
        obtain ⟨he, rfl⟩ := Run.pure_eq_some.mp h
        cases he
        exact ⟨[⟨member, answer, after⟩], others, .cons hfirst (.nil _), rfl, rfl, rfl,
          (ended_cons_iff_of_ends hends).mpr rfl⟩
      | false =>
        simp only [hends, Bool.false_eq_true, if_false] at h
        obtain ⟨⟨answers, afters⟩, last, hothers, h⟩ := Run.bind_eq_some.mp h
        obtain ⟨he, rfl⟩ := Run.pure_eq_some.mp h
        cases he
        obtain ⟨visits, rest, hv, rfl, rfl, rfl, hended⟩ := ih.mp hothers
        exact ⟨⟨member, answer, after⟩ :: visits, rest, .cons hfirst hv, rfl, rfl, rfl,
          (ended_cons_iff_of_goes hends).mpr hended⟩
    · rintro ⟨visits, rest, hv, hb, rfl, rfl, hended⟩
      cases hv with
      | nil =>
        obtain rfl := ended_nil_iff.mp hended
        cases hb
      | @cons visit visits _ middle _ hfirst hv =>
        obtain ⟨rfl, rfl⟩ := List.cons.inj hb
        refine ⟨_, _, hfirst, ?_⟩
        cases hends : ends visit.result with
        | true =>
          obtain rfl := (ended_cons_iff_of_ends hends).mp hended
          cases hv
          simp only [hends, if_true]
          rfl
        | false =>
          simp only [hends, Bool.false_eq_true, if_false]
          exact Run.bind_eq_some.mpr ⟨_, _, ih.mpr ⟨visits, rest, hv, rfl, rfl, rfl,
            (ended_cons_iff_of_goes hends).mp hended⟩, rfl⟩

/-- A loop that no answer ends visits all members. -/
lemma visitAll_eq_some (hm : numbered.map Prod.fst = members) :
    visitEach act (fun _ => false) members depth s = some ((answers, members'), s') ↔
      ∃ visits, Visits act depth visits s s' ∧ visits.map Visit.before = numbered ∧
        members' = visits.map Visit.after ∧ answers = visits.map Visit.result := by
  rw [visitEach_eq_some hm]
  constructor
  · rintro ⟨visits, rest, hv, hb, hafter, hresult, -, hrest⟩
    obtain rfl := hrest fun _ _ => rfl
    rw [List.append_nil] at hb
    rw [List.map_nil, List.append_nil] at hafter
    exact ⟨visits, hv, hb, hafter, hresult⟩
  · rintro ⟨visits, hv, rfl, rfl, rfl⟩
    exact ⟨visits, [], hv, List.append_nil _, (List.append_nil _).symm, rfl, fun _ _ => rfl,
      fun _ => rfl⟩

end Loop

lemma mapM_setUp_eq (configuration : Configuration σ) :
    members.mapM (Member.setUp configuration) = (do
      let (_, members) ← visitEach (visitToSetUp configuration) (fun _ => false) members
      return members) := by
  induction members with
  | nil => rfl
  | cons member rest ih =>
    simp only [List.mapM_cons, visitEach, visitToSetUp, ih, bind_assoc, pure_bind,
      Bool.false_eq_true, if_false]

lemma mapM_setUp_eq_some {configuration : Configuration σ} {members' : List (Member σ)}
    (hm : numbered.map Prod.fst = members) :
    members.mapM (Member.setUp configuration) depth s = some (members', s') ↔
      ∃ visits, Visits (visitToSetUp configuration) depth visits s s' ∧
        visits.map Visit.before = numbered ∧ members' = visits.map Visit.after := by
  rw [mapM_setUp_eq, Run.bind_eq_some]
  constructor
  · rintro ⟨⟨answers, left⟩, middle, hall, h⟩
    obtain ⟨rfl, rfl⟩ := Run.pure_eq_some.mp h
    obtain ⟨visits, hv, hb, hafter, -⟩ := (visitAll_eq_some hm).mp hall
    exact ⟨visits, hv, hb, hafter⟩
  · rintro ⟨visits, hv, hb, rfl⟩
    exact ⟨_, s', (visitAll_eq_some hm).mpr ⟨visits, hv, hb, rfl, rfl⟩, rfl⟩

def failed (outcome : Outcome) : Bool := !outcome.isOk

lemma failed_eq_false {outcome : Outcome} : failed outcome = false ↔ outcome = .ok () := by
  cases outcome <;> simp [failed, Except.isOk, Except.toBool]

lemma startEach_eq (members : List (Member σ)) :
    startEach members = (do
      let (answers, members) ← visitEach Member.start failed members
      return (firstFailure answers, members)) := by
  induction members with
  | nil => rfl
  | cons member rest ih =>
    simp only [startEach, visitEach, ih, bind_assoc]
    refine bind_congr fun told => ?_
    obtain ⟨outcome, member⟩ := told
    cases outcome with
    | error failure => rfl
    | ok _ =>
      simp only [failed_eq_false.mpr rfl, firstFailure, bind_assoc, pure_bind, Bool.false_eq_true,
        if_false]

lemma startEach_eq_some {outcome : Outcome} {members' : List (Member σ)}
    (hm : numbered.map Prod.fst = members) :
    startEach members depth s = some ((outcome, members'), s') ↔
      ∃ visits rest, Visits Member.start depth visits s s' ∧
        visits.map Visit.before ++ rest = numbered ∧
        members' = visits.map Visit.after ++ rest.map Prod.fst ∧
        FirstFailure (visits.map Visit.result) outcome ∧
        (∀ visit ∈ visits.dropLast, visit.result = .ok ()) ∧ (outcome = .ok () → rest = []) := by
  rw [startEach_eq, Run.bind_eq_some]
  constructor
  · rintro ⟨⟨answers, left⟩, middle, hall, h⟩
    obtain ⟨he, rfl⟩ := Run.pure_eq_some.mp h
    cases he
    obtain ⟨visits, rest, hv, hb, hafter, rfl, hgoes, hrest⟩ := (visitEach_eq_some hm).mp hall
    refine ⟨visits, rest, hv, hb, hafter, FirstFailure.iff_eq.mpr rfl,
      fun visit hmem => failed_eq_false.mp (hgoes visit hmem), fun ho => hrest fun visit hmem => ?_⟩
    exact failed_eq_false.mpr (firstFailure_eq_ok.mp ho _ (List.mem_map_of_mem hmem))
  · rintro ⟨visits, rest, hv, hb, hafter, ho, hgoes, hrest⟩
    obtain rfl := FirstFailure.iff_eq.mp ho
    refine ⟨_, s', (visitEach_eq_some hm).mpr ⟨visits, rest, hv, hb, hafter, rfl,
      fun visit hmem => failed_eq_false.mpr (hgoes visit hmem), fun hall => hrest ?_⟩, rfl⟩
    exact firstFailure_eq_ok.mpr (List.forall_mem_map.mpr fun visit hmem =>
      failed_eq_false.mp (hall visit hmem))

lemma shutDownEach_eq (members : List (Member σ)) :
    shutDownEach members = (do
      let (answers, members) ← visitEach visitToShutDown (fun _ => false) members
      return (firstFailure answers, members)) := by
  induction members with
  | nil => rfl
  | cons member rest ih =>
    simp only [shutDownEach, visitEach, visitToShutDown, ih, bind_assoc]
    refine bind_congr fun told => ?_
    obtain ⟨outcome, member⟩ := told
    cases outcome with
    | error failure | ok _ =>
      simp only [firstFailure, bind_assoc, pure_bind, Bool.false_eq_true, if_false]

lemma shutDownEach_eq_some {outcome : Outcome} {members' : List (Member σ)}
    (hm : numbered.map Prod.fst = members) :
    shutDownEach members depth s = some ((outcome, members'), s') ↔
      ∃ visits, Visits visitToShutDown depth visits s s' ∧
        visits.map Visit.before = numbered ∧ members' = visits.map Visit.after ∧
        FirstFailure (visits.map Visit.result) outcome := by
  rw [shutDownEach_eq, Run.bind_eq_some]
  constructor
  · rintro ⟨⟨answers, left⟩, middle, hall, h⟩
    obtain ⟨he, rfl⟩ := Run.pure_eq_some.mp h
    cases he
    obtain ⟨visits, hv, hb, hafter, rfl⟩ := (visitAll_eq_some hm).mp hall
    exact ⟨visits, hv, hb, hafter, FirstFailure.iff_eq.mpr rfl⟩
  · rintro ⟨visits, hv, hb, hafter, ho⟩
    obtain rfl := FirstFailure.iff_eq.mp ho
    exact ⟨_, s', (visitAll_eq_some hm).mpr ⟨visits, hv, hb, hafter, rfl⟩, rfl⟩

variable {lifecycle lifecycle' : Lifecycle σ} {numbers : List ℕ} {outcome : Outcome}

lemma map_fst_zip_members (hn : numbers.length = lifecycle.members.length) :
    (lifecycle.members.zip numbers).map Prod.fst = lifecycle.members :=
  List.map_fst_zip hn.ge

lemma setUp_eq_some {configuration : Configuration σ}
    (hn : numbers.length = lifecycle.members.length) :
    lifecycle.setUp configuration depth s = some (lifecycle', s') ↔
      ∃ visits, Visits (visitToSetUp configuration) depth visits s s' ∧
        visits.map Visit.before = byPhase (lifecycle.members.zip numbers) ∧
        lifecycle'.members = visits.map Visit.after := by
  have hm : (byPhase (lifecycle.members.zip numbers)).map Prod.fst = sort lifecycle.members := by
    rw [map_fst_byPhase, map_fst_zip_members hn]
  rw [setUp, Run.bind_eq_some]
  constructor
  · rintro ⟨members, middle, hall, h⟩
    obtain ⟨rfl, rfl⟩ := Run.pure_eq_some.mp h
    exact (mapM_setUp_eq_some hm).mp hall
  · intro h
    exact ⟨lifecycle'.members, s', (mapM_setUp_eq_some hm).mpr h, rfl⟩

lemma start_eq_some (hn : numbers.length = lifecycle.members.length) :
    lifecycle.start depth s = some ((outcome, lifecycle'), s') ↔
      ∃ visits rest middle, Visits Member.start depth visits s middle ∧
        visits.map Visit.before ++ rest = lifecycle.members.zip numbers ∧
        lifecycle'.members = visits.map Visit.after ++ rest.map Prod.fst ∧
        FirstFailure (visits.map Visit.result) outcome ∧
        (∀ visit ∈ visits.dropLast, visit.result = .ok ()) ∧ (outcome = .ok () → rest = []) ∧
        s' = match outcome with
          | .ok () => middle.addTrace (.event .info "modules started"
              [("modules", toString lifecycle'.members.length)])
          | .error _ => middle := by
  rw [start, Run.bind_eq_some]
  constructor
  · rintro ⟨⟨told, members⟩, middle, hall, h⟩
    obtain ⟨visits, rest, hv, hb, hafter, ho, hdone, hrest⟩ :=
      (startEach_eq_some (map_fst_zip_members hn)).mp hall
    cases told with
    | ok _ | error failure =>
      cases h
      exact ⟨visits, rest, _, hv, hb, hafter, ho, hdone, hrest, rfl⟩
  · rintro ⟨visits, rest, middle, hv, hb, hafter, ho, hdone, hrest, rfl⟩
    refine ⟨(outcome, lifecycle'.members), middle, (startEach_eq_some (map_fst_zip_members hn)).mpr
      ⟨visits, rest, hv, hb, hafter, ho, hdone, hrest⟩, ?_⟩
    cases outcome with
    | ok _ | error failure => rfl

lemma shutDown_eq_some (hn : numbers.length = lifecycle.members.length) :
    lifecycle.shutDown depth s = some ((outcome, lifecycle'), s') ↔
      ∃ visits, Visits visitToShutDown depth visits s s' ∧
        visits.map Visit.before = (lifecycle.members.zip numbers).reverse ∧
        lifecycle'.members = (visits.map Visit.after).reverse ∧
        FirstFailure (visits.map Visit.result) outcome := by
  have hm : (lifecycle.members.zip numbers).reverse.map Prod.fst = lifecycle.members.reverse := by
    rw [List.map_reverse, map_fst_zip_members hn]
  rw [shutDown, Run.bind_eq_some]
  constructor
  · rintro ⟨⟨told, members⟩, middle, hall, h⟩
    obtain ⟨he, rfl⟩ := Run.pure_eq_some.mp h
    cases he
    obtain ⟨visits, hv, hb, rfl, ho⟩ := (shutDownEach_eq_some hm).mp hall
    exact ⟨visits, hv, hb, rfl, ho⟩
  · rintro ⟨visits, hv, hb, hafter, ho⟩
    refine ⟨(outcome, visits.map Visit.after), s',
      (shutDownEach_eq_some hm).mpr ⟨visits, hv, hb, rfl, ho⟩, Run.pure_eq_some.mpr ⟨?_, rfl⟩⟩
    rw [← hafter]

end Calls

structure Standing (registered members : List (Member σ)) (numbers : List ℕ) (settled : Bool) :
    Prop where
  members_length : members.length = registered.length
  numbers_length : numbers.length = registered.length
  kept : ∀ x, ((members.zip numbers).map rank).filter (fun a => phaseLe a x && phaseLe x a) =
    (registered.zipIdx.map rank).filter fun a => phaseLe a x && phaseLe x a
  sorted : settled = true →
    (members.zip numbers).map rank = (byPhase registered.zipIdx).map rank

namespace Standing

variable {registered members members' : List (Member σ)} {numbers : List ℕ} {settled : Bool}

lemma register (h : Standing registered members numbers settled) (member : Member σ) :
    Standing (registered ++ [member]) (members ++ [member]) (numbers ++ [registered.length])
      false where
  members_length := by simp [h.members_length]
  numbers_length := by simp [h.numbers_length]
  kept x := by
    rw [List.zip_append (h.members_length.trans h.numbers_length.symm), map_rank_zipIdx_register,
      List.map_append, List.filter_append, List.filter_append, h.kept x]
    rfl
  sorted := nofun

lemma byPhase_eq (h : Standing registered members numbers settled) :
    (byPhase (members.zip numbers)).map rank = (byPhase registered.zipIdx).map rank := by
  rw [map_rank_byPhase, map_rank_byPhase]
  exact mergeSort_eq_mergeSort phaseLe_trans phaseLe_total h.kept

lemma setUp (h : Standing registered members numbers settled)
    (hp : members'.map Member.phase =
      ((byPhase (members.zip numbers)).map Prod.fst).map Member.phase) :
    Standing registered members' ((byPhase (members.zip numbers)).map Prod.snd) true := by
  have hlength : (byPhase (members.zip numbers)).length = registered.length := by
    rw [byPhase, List.length_mergeSort, List.length_zip, h.members_length, h.numbers_length,
      min_self]
  have hranks : (members'.zip ((byPhase (members.zip numbers)).map Prod.snd)).map rank =
      (byPhase (members.zip numbers)).map rank := by
    rw [map_rank_zip, hp, List.map_map, List.zip_map']
    rfl
  refine ⟨?_, by rw [List.length_map, hlength], fun x => ?_, fun _ => hranks.trans h.byPhase_eq⟩
  · rw [← List.length_map Member.phase, hp, List.length_map, List.length_map, hlength]
  · rw [hranks, map_rank_byPhase, filter_mergeSort phaseLe_trans phaseLe_total, h.kept x]

lemma of_phases (h : Standing registered members numbers settled)
    (hp : members'.map Member.phase = members.map Member.phase) :
    Standing registered members' numbers settled := by
  have hranks : (members'.zip numbers).map rank = (members.zip numbers).map rank := by
    rw [map_rank_zip, map_rank_zip, hp]
  refine ⟨?_, h.numbers_length, fun x => hranks ▸ h.kept x, fun hs => hranks.trans (h.sorted hs)⟩
  rw [← List.length_map Member.phase, hp, List.length_map, h.members_length]

end Standing

lemma Course.standing {registered : List (Member σ)} {lifecycle : Lifecycle σ} {numbers : List ℕ}
    {settled : Bool} (h : Course registered lifecycle numbers settled) :
    Standing registered lifecycle.members numbers settled := by
  -- Calls may change the members, but never a phase.
  induction h with
  | new => exact ⟨rfl, rfl, fun _ => rfl, nofun⟩
  | register _ member ih => exact ih.register member
  | setUp _ call ih =>
    obtain ⟨visits, hv, hb, hafter⟩ :=
      (setUp_eq_some (ih.numbers_length.trans ih.members_length.symm)).mp call
    refine ih.setUp ?_
    rw [hafter, hv.phases phase_of_visitToSetUp, hb]
  | start _ call ih =>
    have hn := ih.numbers_length.trans ih.members_length.symm
    obtain ⟨visits, rest, middle, hv, hb, hafter, -⟩ := (start_eq_some hn).mp call
    refine ih.of_phases ?_
    rw [hafter, List.map_append, hv.phases fun _ _ _ _ _ _ => Member.phase_of_start,
      ← map_fst_zip_members hn, ← hb, List.map_append, List.map_append]
  | shutDown _ call ih =>
    have hn := ih.numbers_length.trans ih.members_length.symm
    obtain ⟨visits, hv, hb, hafter, -⟩ := (shutDown_eq_some hn).mp call
    refine ih.of_phases ?_
    rw [hafter, List.map_reverse, hv.phases phase_of_visitToShutDown, hb, List.map_reverse,
      List.map_reverse, List.reverse_reverse, map_fst_zip_members hn]

/-- Setting up visits all members by phase, each phase in the order of registration, no matter what
was called before. From then on, starting visits them in this order up to the first that fails, and
shutting down visits all of them in the reverse order. -/
theorem visits_follow_phases {registered : List (Member σ)} {lifecycle : Lifecycle σ}
    {numbers : List ℕ} {settled : Bool} (h : Course registered lifecycle numbers settled) :
    ((byPhase registered.zipIdx).Perm registered.zipIdx ∧
      (byPhase registered.zipIdx).Pairwise fun a b =>
        a.1.phase < b.1.phase ∨ a.1.phase = b.1.phase ∧ a.2 < b.2) ∧
    (lifecycle.members.length = registered.length ∧ numbers.length = registered.length) ∧
    ((byPhase (lifecycle.members.zip numbers)).map rank = (byPhase registered.zipIdx).map rank ∧
      ∀ configuration depth s lifecycle' s',
        lifecycle.setUp configuration depth s = some (lifecycle', s') ↔
          ∃ visits, Visits (visitToSetUp configuration) depth visits s s' ∧
            visits.map Visit.before = byPhase (lifecycle.members.zip numbers) ∧
            lifecycle'.members = visits.map Visit.after) ∧
    (settled = true →
      (lifecycle.members.zip numbers).map rank = (byPhase registered.zipIdx).map rank) ∧
    (∀ depth s outcome lifecycle' s',
      lifecycle.start depth s = some ((outcome, lifecycle'), s') ↔
        ∃ visits rest middle, Visits Member.start depth visits s middle ∧
          visits.map Visit.before ++ rest = lifecycle.members.zip numbers ∧
          lifecycle'.members = visits.map Visit.after ++ rest.map Prod.fst ∧
          FirstFailure (visits.map Visit.result) outcome ∧
          (∀ visit ∈ visits.dropLast, visit.result = .ok ()) ∧ (outcome = .ok () → rest = []) ∧
          s' = match outcome with
            | .ok () => middle.addTrace (.event .info "modules started"
                [("modules", toString lifecycle'.members.length)])
            | .error _ => middle) ∧
    ∀ depth s outcome lifecycle' s',
      lifecycle.shutDown depth s = some ((outcome, lifecycle'), s') ↔
        ∃ visits, Visits visitToShutDown depth visits s s' ∧
          visits.map Visit.before = (lifecycle.members.zip numbers).reverse ∧
          lifecycle'.members = (visits.map Visit.after).reverse ∧
          FirstFailure (visits.map Visit.result) outcome := by
  have hs := h.standing
  have hn := hs.numbers_length.trans hs.members_length.symm
  exact ⟨⟨List.mergeSort_perm _ _, pairwise_byPhase registered⟩,
    ⟨hs.members_length, hs.numbers_length⟩,
    ⟨hs.byPhase_eq, fun _ _ _ _ _ => setUp_eq_some hn⟩, hs.sorted,
    fun _ _ _ _ _ => start_eq_some hn, fun _ _ _ _ _ => shutDown_eq_some hn⟩

def noting (name : String) (phase : Int) (onStart onShutDown : Outcome) :
    Member (List (String × String)) :=
  .plain
    { phase
      setUp := fun _ => Program.modify (· ++ [("set up", name)])
      start := do
        Program.modify (· ++ [("start", name)])
        return onStart
      shutDown := do
        Program.modify (· ++ [("shut down", name)])
        return onShutDown }

def late := noting "late" 10 (.error (.report "no start")) (.error (.report "late stays"))

def early := noting "early" (-5) (.ok ()) (.error (.report "early stays"))

def later := noting "later" 10 (.ok ()) (.ok ())

def noted (notes : List (String × String)) : System (List (String × String)) := { shared := notes }

lemma course_noting : Course [late, early, later] ⟨[early, late, later]⟩ [1, 0, 2] true := by
  have hfew : byPhase [(late, 0), (early, 1)] = [(early, 1), (late, 0)] := by
    simp [byPhase, List.mergeSort, List.MergeSort.Internal.splitInTwo, late, early, noting,
      Member.phase]
  have hall : byPhase [(early, 1), (late, 0), (later, 2)] =
      [(early, 1), (late, 0), (later, 2)] := by
    simp [byPhase, List.mergeSort, List.MergeSort.Internal.splitInTwo, late, early, later, noting,
      Member.phase]
  have hfirst : (Lifecycle.mk [late, early]).setUp { bus := 0 } 0 (noted []) =
      some (⟨[early, late]⟩, noted [("set up", "early"), ("set up", "late")]) := by
    have hsort : sort [late, early] = [early, late] :=
      (map_fst_byPhase [(late, 0), (early, 1)]).symm.trans (congrArg _ hfew)
    rw [setUp, hsort]
    rfl
  have hcourse : Course [late, early] ⟨[early, late]⟩
      ((byPhase [(late, 0), (early, 1)]).map Prod.snd) true :=
    .setUp (.register (.register .new late) early) hfirst
  rw [hfew] at hcourse
  have hsecond : (Lifecycle.mk [early, late, later]).setUp { bus := 0 } 0 (noted []) =
      some (⟨[early, late, later]⟩,
        noted [("set up", "early"), ("set up", "late"), ("set up", "later")]) := by
    have hsort : sort [early, late, later] = [early, late, later] :=
      (map_fst_byPhase [(early, 1), (late, 0), (later, 2)]).symm.trans (congrArg _ hall)
    rw [setUp, hsort]
    rfl
  have hcourse : Course [late, early, later] ⟨[early, late, later]⟩
      ((byPhase [(early, 1), (late, 0), (later, 2)]).map Prod.snd) true :=
    .setUp (.register hcourse later) hsecond
  rwa [hall] at hcourse

theorem noting_visits_follow_phases :
    Course [late, early, later] ⟨[early, late, later]⟩ [1, 0, 2] true ∧
    (byPhase [late, early, later].zipIdx).map rank = [(-5, 1), (10, 0), (10, 2)] ∧
    (∃ visits rest middle, Visits Member.start 0 visits (noted []) middle ∧
      visits.map Visit.before ++ rest = [(early, 1), (late, 0), (later, 2)] ∧
      FirstFailure (visits.map Visit.result) (.error (.report "no start")) ∧
      middle.shared = [("start", "early"), ("start", "late")]) ∧
    ∃ visits s', Visits visitToShutDown 0 visits (noted []) s' ∧
      visits.map Visit.before = [(later, 2), (late, 0), (early, 1)] ∧
      FirstFailure (visits.map Visit.result) (.error (.report "late stays")) ∧
      s'.shared = [("shut down", "later"), ("shut down", "late"), ("shut down", "early")] := by
  obtain ⟨-, -, -, hsettled, hstart, hshut⟩ := visits_follow_phases course_noting
  refine ⟨course_noting, (hsettled rfl).symm, ?_, ?_⟩
  · obtain ⟨visits, rest, middle, hv, hb, -, ho, -, -, hm⟩ :=
      (hstart 0 (noted []) (.error (.report "no start")) ⟨[early, late, later]⟩
        (noted [("start", "early"), ("start", "late")])).mp rfl
    exact ⟨visits, rest, middle, hv, hb, ho, congrArg System.shared hm.symm⟩
  · obtain ⟨visits, hv, hb, -, ho⟩ :=
      (hshut 0 (noted []) (.error (.report "late stays")) ⟨[early, late, later]⟩ _).mp rfl
    exact ⟨visits, _, hv, hb, ho, rfl⟩

end Lifecycle

end EventProcessing
