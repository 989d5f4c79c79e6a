import ReleasePicker.Proofs.Update.Effects
import ReleasePicker.Proofs.Options.Sessions
import ReleasePicker.Update.Overlap
import Mathlib.Data.List.Perm.Basic

/-!
Runs that overlap on one file do no more than runs one after the other. A run may write what follows
from a content that is no longer there, but no revision can tell the contents apart that the runs
leave (`Alike`): what a run writes is what it would write on the first content. So the last run that
writes decides, and the others might as well have gone before it.
-/
namespace ReleasePicker.Update

open Files Options

variable {original : Text} {requests : List Request} {request : Request}

/-! ## What a run does to a content -/

/-- Whether a request can come to write at all. -/
def Request.IsReal (request : Request) : Prop :=
  Text.trim request.defaultEntry ≠ [] ∧ request.dryRun = false

instance (request : Request) : Decidable request.IsReal :=
  inferInstanceAs (Decidable (_ ∧ _))

/-- The content after a request that is carried out on it alone. -/
def Request.rewrite (request : Request) (content : Text) : Text :=
  if request.IsReal then contentAfter content request.entries else content

theorem entries_ne_nil (request : Request) : request.entries ≠ [] :=
  List.cons_ne_nil _ _

theorem alike_rewrite (request : Request) (content : Text) :
    Alike (request.rewrite content) content := by
  unfold Request.rewrite
  split
  · exact alike_contentAfter content (entries_ne_nil request)
  · exact .refl content

theorem rewrite_of_alike (real : request.IsReal) (alike : Alike content original)
    (accepted : (replaceEntries original request.entries).isOk = true) :
    request.rewrite content = contentAfter original request.entries := by
  rw [Request.rewrite, if_pos real, alike.contentAfter_eq accepted]

/-- What a run comes to after it has read a content: it ends if that is what it leaves, and is about
to write what it leaves otherwise. -/
inductive After (request : Request) (seen : Text) : Task Outcome → Prop where
  | idle (same : request.rewrite seen = seen) : After request seen (.ended outcome)
  | writes (real : request.IsReal) (accepted : (replaceEntries seen request.entries).isOk = true)
      (last : ∀ result, (next result).isEnded = true) :
      After request seen (.replaces request.path (Utf8.encode (request.rewrite seen)) next)

theorem rewrite_of_error (refused : replaceEntries seen request.entries = .error error) :
    request.rewrite seen = seen := by
  unfold Request.rewrite
  split
  · exact contentAfter_of_refused (by rw [refused]; rfl)
  · rfl

theorem rewrite_of_ok (real : request.IsReal)
    (revised : replaceEntries seen request.entries = .ok revision) :
    request.rewrite seen = revision.content := by
  rw [Request.rewrite, if_pos real, contentAfter, revised]

theorem rewrite_of_idle (revised : replaceEntries seen request.entries = .ok revision)
    (idle : request.worked.writes revision = false) : request.rewrite seen = seen := by
  by_cases real : request.IsReal
  · rw [rewrite_of_ok real revised]
    by_contra changed
    have changed := (changed_iff revised).mpr changed
    have writes : request.worked.writes revision = (revision.changed && !request.dryRun) := rfl
    rw [idle, changed, real.2] at writes
    cases writes
  · rw [Request.rewrite, if_neg real]

/-- A run ends at once, or it reads the file and goes on from there. -/
theorem ofRequest_cases (request : Request) :
    (¬ request.IsReal ∧ (Task.ofRequest request).isEnded = true) ∨
      ∃ next, Task.ofRequest request = .reads request.path next ∧
        ∀ seen, After request seen (next (.ok seen)) := by
  unfold Task.ofRequest runWith
  rw [plan_eq]
  by_cases blank : Text.trim request.defaultEntry = []
  · rw [if_pos blank]
    exact .inl ⟨fun real => real.1 blank, rfl⟩
  · rw [if_neg blank]
    refine .inr ⟨_, rfl, ?_⟩
    intro seen
    dsimp only [Task.andThen]
    cases revised : replaceEntries seen request.entries with
    | error error =>
      have refused : request.worked.revise seen = .error (.revision request.path error) :=
        congrArg (Except.mapError (Failure.revision request.path)) revised
      rw [refused]
      exact .idle (rewrite_of_error revised)
    | ok revision =>
      have accepted : request.worked.revise seen = .ok revision :=
        congrArg (Except.mapError (Failure.revision request.path)) revised
      rw [accepted]
      dsimp only
      cases writes : request.worked.writes revision with
      | false => exact .idle (rewrite_of_idle revised writes)
      | true =>
        have real : request.IsReal := by
          have both : (revision.changed && !request.dryRun) = true := writes
          exact ⟨blank, by simpa using (Bool.and_eq_true_iff.mp both).2⟩
        rw [if_pos rfl, ← rewrite_of_ok real revised]
        refine .writes real (by rw [revised]; rfl) ?_
        intro result
        cases result with
        | ok _ => rfl
        | error _ => rfl

/-! ## One after the other -/

section

variable {m : Type → Type} [Monad m] [LawfulMonad m]

theorem via_andThen (files : Access m) (task : Task α) (after : α → Task β) :
    (task.andThen after).via files = task.via files >>= fun result => (after result).via files := by
  induction task with
  | ended result => simp [Task.andThen, Task.via]
  | reads path next ih => simp [Task.andThen, Task.via, ih]
  | replaces path content next ih => simp [Task.andThen, Task.via, ih]

theorem via_read (files : Access m) (path : Bytes) :
    (Task.access.read path).via files = files.read path :=
  bind_pure _

theorem via_replace (files : Access m) (path content : Bytes) :
    (Task.access.replace path content).via files = files.replace path content :=
  bind_pure _

/-- A run with any access to files is its task carried out with that access. -/
theorem via_ofRequest (files : Access m) (request : Request) :
    (Task.ofRequest request).via files = runWith files request := by
  unfold Task.ofRequest runWith
  cases request.plan with
  | error failure => rfl
  | ok plan =>
    simp only [bind, via_andThen, via_read]
    apply bind_congr
    intro read
    cases read with
    | error error => rfl
    | ok content =>
      dsimp only
      cases plan.revise content with
      | error failure => rfl
      | ok revision =>
        dsimp only
        split
        · rw [via_andThen, via_replace]
          apply bind_congr
          intro replaced
          cases replaced with
          | error error => rfl
          | ok _ => rfl
        · rfl

end

theorem asText_encode (path : Bytes) (text : Text) :
    asText path (.ok (Utf8.encode text)) = .ok text := by
  rw [asText, Utf8.decode?_encode]

theorem via_of_isEnded {task : Task α} (ended : task.isEnded = true) (content : Bytes) :
    (task.via soleAccess content).2 = content := by
  cases task with
  | ended result => rfl
  | reads | replaces => cases ended

theorem runWith_soleAccess (request : Request) (content : Text) :
    (runWith soleAccess request (Utf8.encode content)).2 =
      Utf8.encode (request.rewrite content) := by
  rw [← via_ofRequest]
  rcases ofRequest_cases request with ⟨unreal, ended⟩ | ⟨next, reads, after⟩
  · rw [via_of_isEnded ended, Request.rewrite, if_neg unreal]
  · have read : ((Task.ofRequest request).via soleAccess (Utf8.encode content)).2 =
        ((next (asText request.path (.ok (Utf8.encode content)))).via soleAccess
          (Utf8.encode content)).2 := by
      rw [reads]
      rfl
    rw [read, asText_encode]
    have after := after content
    revert after
    generalize next (.ok content) = task
    intro after
    cases after with
    | idle same =>
      rw [same]
      rfl
    | writes real accepted last => exact via_of_isEnded (last (.ok ())) _

theorem inTurn_encode (requests : List Request) (content : Text) :
    inTurn (Utf8.encode content) requests =
      Utf8.encode (requests.foldl (fun text request => request.rewrite text) content) := by
  induction requests generalizing content with
  | nil => rfl
  | cons request rest ih =>
    rw [List.foldl_cons, ← ih, inTurn, List.foldl_cons, runWith_soleAccess]
    rfl

theorem rewrites_of_same (same : ∀ request ∈ requests, request.rewrite content = content) :
    requests.foldl (fun text request => request.rewrite text) content = content := by
  induction requests with
  | nil => rfl
  | cons request rest ih =>
    rw [List.foldl_cons, same request List.mem_cons_self]
    exact ih fun other member => same other (List.mem_cons_of_mem request member)

theorem alike_rewrites (requests : List Request) (alike : Alike content original) :
    Alike (requests.foldl (fun text request => request.rewrite text) content) original := by
  induction requests generalizing content with
  | nil => exact alike
  | cons request rest ih => exact ih ((alike_rewrite request content).trans alike)

/-! ## Turn by turn -/

/-- How far a run can have come, given which runs have written so far. As long as no run has, it can
only have seen the first content. -/
inductive Progress (original : Text) (writers : List Nat) (runner : Nat) (request : Request) :
    Task Outcome → Prop where
  | waiting : Progress original writers runner request (Task.ofRequest request)
  | seen (alike : Alike seen original) (first : writers = [] → seen = original)
      (after : After request seen task) : Progress original writers runner request task
  | written (mine : runner ∈ writers) (ended : task.isEnded = true) :
      Progress original writers runner request task

/-- What is true of overlapping runs at every moment. -/
structure Coherent (original : Text) (requests : List Request) (overlap : Overlap) : Prop where
  count : overlap.tasks.length = requests.length
  runs : ∀ runner request task, requests[runner]? = some request →
    overlap.tasks[runner]? = some task → Progress original overlap.writers runner request task
  untouched : overlap.writers = [] → overlap.content = Utf8.encode original
  touched : ∀ runner, overlap.writers.getLast? = some runner →
    ∃ request, requests[runner]? = some request ∧ request.IsReal ∧
      (replaceEntries original request.entries).isOk = true ∧
      overlap.content = Utf8.encode (contentAfter original request.entries)

theorem coherent_start (original : Text) (requests : List Request) :
    Coherent original requests (Overlap.start original requests) where
  count := List.length_map _
  runs := by
    intro runner request task asked running
    have same : (Overlap.start original requests).tasks[runner]? =
        requests[runner]?.map Task.ofRequest := List.getElem?_map
    rw [asked, running] at same
    cases same
    exact .waiting
  untouched := fun _ => rfl
  touched := by
    intro runner last
    cases last

/-- A run that has come so far has come so far after another one has written. -/
theorem Progress.mono (progress : Progress original writers runner request task) (other : Nat) :
    Progress original (writers ++ [other]) runner request task := by
  cases progress with
  | waiting => exact .waiting
  | seen alike _ after => exact .seen alike (by simp) after
  | written mine ended => exact .written (List.mem_append_left _ mine) ended

namespace Coherent

variable {overlap : Overlap} {runner : Nat} {path content : Bytes}

/-- There is always a text in the file that revisions cannot tell from the first one. -/
theorem content_eq (coherent : Coherent original requests overlap) :
    ∃ text, overlap.content = Utf8.encode text ∧ Alike text original ∧
      (overlap.writers = [] → text = original) := by
  cases last : overlap.writers.getLast? with
  | none =>
    have none : overlap.writers = [] := List.getLast?_eq_none_iff.mp last
    exact ⟨original, coherent.untouched none, .refl original, fun _ => rfl⟩
  | some runner =>
    obtain ⟨request, -, -, -, same⟩ := coherent.touched runner last
    refine ⟨_, same, alike_contentAfter original (entries_ne_nil request), ?_⟩
    intro none
    rw [none] at last
    cases last

theorem exists_request (coherent : Coherent original requests overlap)
    (running : overlap.tasks[runner]? = some task) :
    ∃ request, requests[runner]? = some request := by
  obtain ⟨inside, -⟩ := List.getElem?_eq_some_iff.mp running
  rw [coherent.count] at inside
  exact ⟨requests[runner], List.getElem?_eq_getElem inside⟩

/-- A run that is about to read has not done anything yet. -/
theorem after_read {next : Except FileError Text → Task Outcome}
    (coherent : Coherent original requests overlap)
    (running : overlap.tasks[runner]? = some (.reads path next))
    (asked : requests[runner]? = some request) (text : Text) :
    After request text (next (.ok text)) := by
  have progress := coherent.runs runner request _ asked running
  generalize task : Task.reads path next = current at progress
  cases progress with
  | waiting =>
    rcases ofRequest_cases request with ⟨-, ended⟩ | ⟨next', reads, after⟩
    · rw [← task] at ended
      cases ended
    · rw [reads] at task
      cases task
      exact after text
  | seen _ _ after =>
    subst task
    cases after
  | written _ ended =>
    subst task
    cases ended

/-- A run that is about to write has seen a text and writes what it leaves of it. -/
theorem before_replace {next : Except FileError Unit → Task Outcome}
    (coherent : Coherent original requests overlap)
    (running : overlap.tasks[runner]? = some (.replaces path content next))
    (asked : requests[runner]? = some request) :
    request.IsReal ∧ (replaceEntries original request.entries).isOk = true ∧
      content = Utf8.encode (contentAfter original request.entries) ∧
      (next (.ok ())).isEnded = true := by
  have progress := coherent.runs runner request _ asked running
  generalize task : Task.replaces path content next = current at progress
  cases progress with
  | waiting =>
    rcases ofRequest_cases request with ⟨-, ended⟩ | ⟨next', reads, -⟩
    · rw [← task] at ended
      cases ended
    · rw [reads] at task
      cases task
  | seen alike _ after =>
    subst task
    cases after with
    | writes real accepted last =>
      rw [alike.isOk_eq] at accepted
      rw [rewrite_of_alike real alike accepted]
      exact ⟨real, accepted, rfl, last (.ok ())⟩
  | written _ ended =>
    subst task
    cases ended

/-- A run reads. -/
theorem read (coherent : Coherent original requests overlap)
    (running : overlap.tasks[runner]? = some (.reads path next)) :
    Coherent original requests { overlap with
      tasks := overlap.tasks.set runner (next (asText path (.ok overlap.content))) } := by
  obtain ⟨text, holds, alike, first⟩ := coherent.content_eq
  refine ⟨by rw [List.length_set, coherent.count], ?_, coherent.untouched, coherent.touched⟩
  intro other request task asked now
  by_cases same : runner = other
  · subst same
    rw [List.getElem?_set_self (List.getElem?_eq_some_iff.mp running).1, holds,
      asText_encode] at now
    cases now
    exact .seen alike first (coherent.after_read running asked text)
  · rw [List.getElem?_set_ne same] at now
    exact coherent.runs other request task asked now

/-- A run writes. -/
theorem replace (coherent : Coherent original requests overlap)
    (running : overlap.tasks[runner]? = some (.replaces path content next)) :
    Coherent original requests
      ⟨content, overlap.tasks.set runner (next (.ok ())), overlap.writers ++ [runner]⟩ := by
  obtain ⟨request, asked⟩ := coherent.exists_request running
  obtain ⟨real, accepted, written, ended⟩ := coherent.before_replace running asked
  refine ⟨by rw [List.length_set, coherent.count], ?_, ?_, ?_⟩
  · intro other request task asked now
    by_cases same : runner = other
    · subst same
      rw [List.getElem?_set_self (List.getElem?_eq_some_iff.mp running).1] at now
      cases now
      exact .written (by simp) ended
    · rw [List.getElem?_set_ne same] at now
      exact (coherent.runs other request task asked now).mono runner
  · intro none
    simp at none
  · intro last known
    rw [List.getLast?_concat] at known
    cases known
    exact ⟨request, asked, real, accepted, written⟩

theorem turn (coherent : Coherent original requests overlap) (runner : Nat) :
    Coherent original requests (overlap.turn runner) := by
  unfold Overlap.turn
  split
  · rename_i path next running
    exact coherent.read running
  · rename_i path content next running
    exact coherent.replace running
  · exact coherent

theorem turns (coherent : Coherent original requests overlap) (order : List Nat) :
    Coherent original requests (overlap.turns order) := by
  induction order generalizing overlap with
  | nil => exact coherent
  | cons runner rest ih => exact ih (coherent.turn runner)

end Coherent

/-! ## Coming to an end -/

/-- Whether a task ends within some uses of a file that go well. -/
inductive EndsWithin : Nat → Task α → Prop where
  | ended (steps : Nat) : EndsWithin steps (.ended result)
  | reads (next_ends : ∀ text, EndsWithin steps (next (.ok text))) :
      EndsWithin (steps + 1) (.reads path next)
  | replaces (next_ends : EndsWithin steps (next (.ok ()))) :
      EndsWithin (steps + 1) (.replaces path content next)

theorem endsWithin_of_isEnded {task : Task α} (ended : task.isEnded = true) (steps : Nat) :
    EndsWithin steps task := by
  cases task with
  | ended => exact .ended steps
  | reads | replaces => cases ended

theorem EndsWithin.isEnded {task : Task α} (ends : EndsWithin 0 task) : task.isEnded = true := by
  cases ends with
  | ended => rfl

/-- A run reads once and writes once at most. -/
theorem endsWithin_ofRequest (request : Request) : EndsWithin 2 (Task.ofRequest request) := by
  rcases ofRequest_cases request with ⟨-, ended⟩ | ⟨next, reads, after⟩
  · exact endsWithin_of_isEnded ended 2
  · rw [reads]
    apply EndsWithin.reads
    intro text
    have after := after text
    generalize next (.ok text) = task at after
    cases after with
    | idle => exact .ended 1
    | writes _ _ last => exact .replaces (endsWithin_of_isEnded (last (.ok ())) 0)

namespace Coherent

variable {overlap : Overlap}

/-- A turn brings a run nearer to its end, and no other one away from it. -/
theorem endsWithin_turn (coherent : Coherent original requests overlap) (runner other : Nat)
    {task : Task Outcome} (running : overlap.tasks[other]? = some task)
    (ends : EndsWithin steps task) :
    ∃ later, (overlap.turn runner).tasks[other]? = some later ∧
      EndsWithin (if runner = other then steps - 1 else steps) later := by
  by_cases same : runner = other
  · subst same
    have inside := (List.getElem?_eq_some_iff.mp running).1
    unfold Overlap.turn
    rw [running, if_pos rfl]
    cases ends with
    | ended => exact ⟨_, running, .ended _⟩
    | reads next_ends =>
      obtain ⟨text, holds, -, -⟩ := coherent.content_eq
      dsimp only
      rw [holds, asText_encode]
      exact ⟨_, List.getElem?_set_self inside, next_ends text⟩
    | replaces next_ends => exact ⟨_, List.getElem?_set_self inside, next_ends⟩
  · refine ⟨task, ?_, by rwa [if_neg same]⟩
    unfold Overlap.turn
    split
    · exact (List.getElem?_set_ne same).trans running
    · exact (List.getElem?_set_ne same).trans running
    · exact running

theorem endsWithin_turns (coherent : Coherent original requests overlap) (order : List Nat)
    {other : Nat} {task : Task Outcome} (running : overlap.tasks[other]? = some task)
    (ends : EndsWithin steps task) :
    ∃ later, (overlap.turns order).tasks[other]? = some later ∧
      EndsWithin (steps - order.count other) later := by
  induction order generalizing overlap task steps with
  | nil => exact ⟨task, running, ends⟩
  | cons runner rest ih =>
    obtain ⟨next, running, ends⟩ := coherent.endsWithin_turn runner other running ends
    obtain ⟨later, running, ends⟩ := ih (coherent.turn runner) running ends
    refine ⟨later, running, ?_⟩
    have fewer : (if runner = other then steps - 1 else steps) - rest.count other =
        steps - (runner :: rest).count other := by
      by_cases same : runner = other
      · subst same
        rw [if_pos rfl, List.count_cons_self]
        omega
      · rw [if_neg same, List.count_cons_of_ne same]
    rwa [fewer] at ends

end Coherent

/-- When every run has had two turns, all have ended. -/
theorem isOver_of_two_turns {original : Text} {requests : List Request} {order : List Nat}
    (turns : ∀ runner, runner < requests.length → 2 ≤ order.count runner) :
    ((Overlap.start original requests).turns order).isOver = true := by
  have coherent := coherent_start original requests
  apply List.all_eq_true.mpr
  intro task member
  obtain ⟨runner, inside, rfl⟩ := List.mem_iff_getElem.mp member
  have asked : runner < requests.length := (coherent.turns order).count ▸ inside
  have running : (Overlap.start original requests).tasks[runner]? =
      some (Task.ofRequest requests[runner]) := by
    rw [Overlap.start, List.getElem?_map, List.getElem?_eq_getElem asked]
    rfl
  obtain ⟨later, running, ends⟩ :=
    coherent.endsWithin_turns order running (endsWithin_ofRequest requests[runner])
  rw [List.getElem?_eq_getElem inside] at running
  cases running
  rw [Nat.sub_eq_zero_of_le (turns runner asked)] at ends
  exact ends.isEnded

/-! ## The last one to write decides -/

namespace Coherent

variable {overlap : Overlap}

/-- If all runs have ended without writing, each of them leaves the first content as it is. -/
theorem rewrite_eq (coherent : Coherent original requests overlap) (finished : overlap.isOver = true)
    (none : overlap.writers = []) (member : request ∈ requests) :
    request.rewrite original = original := by
  obtain ⟨runner, inside, rfl⟩ := List.mem_iff_getElem.mp member
  obtain ⟨task, running⟩ : ∃ task, overlap.tasks[runner]? = some task :=
    ⟨_, List.getElem?_eq_getElem (coherent.count ▸ inside)⟩
  have ended := List.all_eq_true.mp finished _ (List.mem_of_getElem? running)
  have progress := coherent.runs runner _ _ (List.getElem?_eq_getElem inside) running
  cases progress with
  | waiting =>
    rcases ofRequest_cases requests[runner] with ⟨unreal, -⟩ | ⟨next, reads, -⟩
    · rw [Request.rewrite, if_neg unreal]
    · rw [reads] at ended
      cases ended
  | seen _ first after =>
    cases first none
    cases after with
    | idle same => exact same
    | writes => cases ended
  | written mine =>
    rw [none] at mine
    cases mine

/-- What the runs leave is what they leave one after the other, the last one to write last. -/
theorem exists_serial (coherent : Coherent original requests overlap)
    (finished : overlap.isOver = true) : ∃ serial, serial.Perm requests ∧
      overlap.content = inTurn (Utf8.encode original) serial := by
  cases last : overlap.writers.getLast? with
  | none =>
    have none : overlap.writers = [] := List.getLast?_eq_none_iff.mp last
    refine ⟨requests, .refl requests, ?_⟩
    rw [coherent.untouched none, inTurn_encode,
      rewrites_of_same fun _ member => coherent.rewrite_eq finished none member]
  | some runner =>
    obtain ⟨request, asked, real, accepted, holds⟩ := coherent.touched runner last
    obtain ⟨inside, rfl⟩ := List.getElem?_eq_some_iff.mp asked
    refine ⟨requests.eraseIdx runner ++ [requests[runner]], ?_, ?_⟩
    · exact (List.perm_append_singleton _ _).trans (List.getElem_cons_eraseIdx_perm inside)
    · have alike := alike_rewrites (requests.eraseIdx runner) (Alike.refl original)
      rw [inTurn_encode, List.foldl_append, List.foldl_cons, List.foldl_nil,
        rewrite_of_alike real alike accepted, holds]

end Coherent

/-- **Overlapping runs come to what runs one after the other come to.** Whenever the runs of some
requests take their turns on a text, in whatever order, the file holds the text as long as no run
has written, and from then on the revision of that very text by the last run to write. When all runs
have ended, which they have after two turns each, it holds what the same requests leave in some
order, each carried out on its own. -/
theorem overlap_serializable (original : Text) (requests : List Request) (order : List Nat) :
    let now := (Overlap.start original requests).turns order
    (now.writers = [] ∧ now.content = Utf8.encode original ∨
      ∃ runner request revision, now.writers.getLast? = some runner ∧
        requests[runner]? = some request ∧
        replaceEntries original request.entries = .ok revision ∧
        now.content = Utf8.encode revision.content) ∧
    (now.isOver = true → ∃ serial, serial.Perm requests ∧
      now.content = inTurn (Utf8.encode original) serial) ∧
    ((∀ runner, runner < requests.length → 2 ≤ order.count runner) → now.isOver = true) := by
  intro now
  have coherent : Coherent original requests now := (coherent_start original requests).turns order
  refine ⟨?_, coherent.exists_serial, isOver_of_two_turns⟩
  cases last : now.writers.getLast? with
  | none =>
    have none : now.writers = [] := List.getLast?_eq_none_iff.mp last
    exact .inl ⟨none, coherent.untouched none⟩
  | some runner =>
    obtain ⟨request, asked, -, accepted, holds⟩ := coherent.touched runner last
    cases revised : replaceEntries original request.entries with
    | error error =>
      rw [revised] at accepted
      cases accepted
    | ok revision =>
      rw [contentAfter, revised] at holds
      exact .inr ⟨runner, request, revision, rfl, asked, revised, holds⟩

/-- A request for a short list of releases. -/
def shortRequest (releases : String) (dryRun : Bool) : Request where
  root := Utf8.encode ".".toList
  file := Utf8.encode "ci.yml".toList
  releases := releases.toList
  defaultEntry := "none".toList
  dryRun := dryRun

/-- Two requests that write and one that only tries. -/
def staleRequests : List Request :=
  [shortRequest "v1" false, shortRequest "v2" false, shortRequest "v3" true]

/-- Two runs read before either writes: the second to write decides. -/
theorem overlap_serializable_stale :
    ((Overlap.start "options:\n".toList staleRequests).turns [2, 1, 0, 0, 1]).isOver = true ∧
      ((Overlap.start "options:\n".toList staleRequests).turns [2, 1, 0, 0, 1]).content =
        Utf8.encode "options:\n  - 'none'\n  - 'v2'\n".toList ∧
      ∃ serial, serial.Perm staleRequests ∧
        ((Overlap.start "options:\n".toList staleRequests).turns [2, 1, 0, 0, 1]).content =
          inTurn (Utf8.encode "options:\n".toList) serial := by
  have finished : ((Overlap.start "options:\n".toList staleRequests).turns
      [2, 1, 0, 0, 1]).isOver = true := by
    cbv
  obtain ⟨-, serial, -⟩ := overlap_serializable "options:\n".toList staleRequests [2, 1, 0, 0, 1]
  exact ⟨finished, by cbv, serial finished⟩

end ReleasePicker.Update
