import Mathlib.Data.List.DropRight
import Mathlib.Data.List.Forall2
import Linewise.Proofs.LineFrame

/-! A terminal with typed input and a list of replies given beforehand are interchangeable. The
lines that are still to be read stand for the replies that are still to be given, and what was
written to the terminal for the names that were asked for. A question keeps this relation and is
answered alike on both sides, and everything else that a line does leaves the prompt alone. -/
namespace Linewise

/-! ## Lines of input as replies -/

theorem fromUTF8?_eq_some_iff {bytes : ByteArray} {text : String} :
    String.fromUTF8? bytes = some text ↔ text.toUTF8 = bytes := by
  constructor
  · intro decoded
    unfold String.fromUTF8? at decoded
    split at decoded
    · cases decoded
      rfl
    · cases decoded
  · rintro rfl
    exact dif_pos text.isValidUTF8

namespace Terminal

/-- The reply that a line of input stands for: none if the line is not UTF-8, else its text without
the carriage returns and line feeds at its end. -/
def Replies (line : List UInt8) : Option String → Prop
  | none => ∀ text : String, text.toUTF8.data.toList ≠ line
  | some reply => ∃ text : String, text.toUTF8.data.toList = line ∧
      reply.toList = text.toList.rdropWhile fun c => c = '\r' ∨ c = '\n'

/-- Each line of input stands for exactly one reply. -/
theorem replies_iff {line : List UInt8} {reply : Option String} :
    Replies line reply ↔ reply? line = reply := by
  have decodes {text : String} : String.fromUTF8? ⟨line.toArray⟩ = some text ↔
      text.toUTF8.data.toList = line := by
    rw [fromUTF8?_eq_some_iff]
    constructor
    · intro same
      rw [same]
    · rintro rfl
      rfl
  have ends : (fun c => decide (c = '\r' ∨ c = '\n')) = isLineEnd := by
    funext c
    exact Bool.decide_or _ _
  cases reply with
  | none =>
    rw [reply?, Option.map_eq_none_iff, Option.eq_none_iff_forall_ne_some]
    exact forall_congr' fun text => not_congr decodes.symm
  | some reply =>
    rw [reply?, Option.map_eq_some_iff, Replies, ends]
    refine exists_congr fun text => and_congr decodes.symm ?_
    rw [← String.toList_inj, String.toList_ofList]
    exact eq_comm

theorem forall₂_replies_iff {lines : List (List UInt8)} {replies : List (Option String)} :
    List.Forall₂ Replies lines replies ↔ lines.map reply? = replies := by
  have same : Replies = fun line reply => reply? line = reply := by
    funext line reply
    exact propext replies_iff
  rw [same, ← List.forall₂_map_left_iff (R := Eq), List.forall₂_eq_eq_eq]

/-- The next line of input is the first segment, and the other segments are left. -/
theorem segments_eq_nextLine {input : List UInt8} (more : input ≠ []) :
    Text.segments 10 input = (nextLine input).1 :: Text.segments 10 (nextLine input).2 := by
  induction input with
  | nil => exact absurd rfl more
  | cons b rest ih =>
    rw [Text.segments, nextLine]
    by_cases feed : b = 10
    · simp [feed]
    · simp only [beq_iff_eq, if_neg feed]
      cases rest with
      | nil => rfl
      | cons c after =>
        rw [ih (by simp)]

/-- On a terminal without limit a question is written and takes the next line of input. -/
theorem ask_of_unlimited {t : Terminal} (unlimited : t.room = none) (name : String) :
    t.ask name =
      ({ t with
          input := (nextLine t.input).2
          written := t.written ++ (question name).toUTF8 },
        if t.input = [] then none else reply? (nextLine t.input).1) := by
  obtain ⟨input, written, room⟩ := t
  obtain rfl : room = none := unlimited
  cases input with
  | nil => rfl
  | cons b rest => rfl

end Terminal

/-! ## Questions -/

/-- A terminal without limit stands for a script: its lines of input for the replies, and what was
written for the names that were asked for. -/
structure Terminal.StandsFor (t : Terminal) (s : Script) : Prop where
  unlimited : t.room = none
  replies : s.replies = (Text.segments 10 t.input).map Terminal.reply?
  written : t.written = (String.join (s.asked.map question)).toUTF8

namespace Terminal.StandsFor

variable {t : Terminal} {s : Script}

/-- A question is answered alike, and uses up one line and one reply, or none if there is none. -/
theorem ask (stands : t.StandsFor s) (name : String) :
    (t.ask name).1.StandsFor (s.ask name).1 ∧ (t.ask name).2 = (s.ask name).2 := by
  have written : t.written ++ (question name).toUTF8 =
      (String.join ((s.asked ++ [name]).map question)).toUTF8 := by
    rw [stands.written, List.map_append, String.join_append]
    simp [String.join]
  rw [ask_of_unlimited stands.unlimited]
  have replies := stands.replies
  by_cases ended : t.input = []
  · rw [ended] at replies
    rw [if_pos ended, ended]
    simp only [Script.ask, replies]
    exact ⟨⟨stands.unlimited, rfl, written⟩, rfl⟩
  · rw [segments_eq_nextLine ended, List.map_cons] at replies
    rw [if_neg ended]
    simp only [Script.ask, replies]
    exact ⟨⟨stands.unlimited, rfl, written⟩, rfl⟩

/-- What stands on the terminal is the text of all questions. -/
theorem transcript_eq (stands : t.StandsFor s) :
    t.transcript = String.join (s.asked.map question) := by
  have decoded : String.fromUTF8? t.written = some (String.join (s.asked.map question)) :=
    fromUTF8?_eq_some_iff.mpr stands.written.symm
  have whole : t.written.extract 0 (t.written.size - 0) = t.written := ByteArray.extract_zero_size
  rw [transcript, textOf, List.findSome?_cons, whole, decoded]
  rfl

end Terminal.StandsFor

/-- A terminal in the place of a script that it stands for. -/
def Prompt.StandsFor : Prompt → Prompt → Prop
  | .terminal t, .script s => t.StandsFor s
  | _, _ => False

theorem Prompt.StandsFor.ask {p q : Prompt} (stands : p.StandsFor q) (name : String) :
    (p.ask name).1.StandsFor (q.ask name).1 ∧ (p.ask name).2 = (q.ask name).2 := by
  cases p <;> cases q <;> first | exact stands.elim | skip
  case terminal.script t s => exact Terminal.StandsFor.ask stands name

/-! ## Runs -/

namespace Surroundings

variable {π φ : Type} {w : Surroundings π φ} {related : π → π → Prop}

/-- Two scenes that differ only in their prompts, which are related. -/
structure Alike (related : π → π → Prop) (s t : Scene π φ) : Prop where
  store : s.store = t.store
  files : s.files = t.files
  prompt : related s.prompt t.prompt

/-- Prompts that answer alike and stay related lead from scenes that are alike to such scenes, with
the same output. -/
theorem Alike.execute {s t : Scene π φ} (alike : Alike related s t)
    (asks : ∀ p q, related p q → ∀ name,
      related (w.ask p name).1 (w.ask q name).1 ∧ (w.ask p name).2 = (w.ask q name).2)
    (line : String) :
    Alike related (w.execute s line).1 (w.execute t line).1 ∧
      (w.execute s line).2 = (w.execute t line).2 := by
  obtain ⟨store, p, files⟩ := s
  obtain ⟨other, q, others⟩ := t
  obtain ⟨rfl, rfl, prompt⟩ := alike
  unfold Surroundings.execute
  simp only
  cases store.step Keyword.all line with
  | done outcome => exact ⟨⟨rfl, rfl, prompt⟩, rfl⟩
  | ask name resume =>
    obtain ⟨still, reply⟩ := asks p q prompt name
    simp only [Surroundings.answer, reply]
    exact ⟨⟨rfl, rfl, still⟩, trivial⟩
  | read path resume => exact ⟨⟨rfl, rfl, prompt⟩, rfl⟩
  | write path contents resume => exact ⟨⟨rfl, rfl, prompt⟩, rfl⟩

theorem Alike.run {s t : Scene π φ} (alike : Alike related s t)
    (asks : ∀ p q, related p q → ∀ name,
      related (w.ask p name).1 (w.ask q name).1 ∧ (w.ask p name).2 = (w.ask q name).2)
    (lines : List String) :
    Alike related (w.run s lines).1 (w.run t lines).1 ∧ (w.run s lines).2 = (w.run t lines).2 := by
  induction lines generalizing s t with
  | nil => exact ⟨alike, rfl⟩
  | cons line more ih =>
    obtain ⟨next, output⟩ := alike.execute asks line
    obtain ⟨last, notes⟩ := ih next
    rw [run_cons, run_cons, output, notes]
    exact ⟨last, rfl⟩

end Surroundings

/-- The name for which a line asks: the first argument of an input that has one. -/
def askedFor? (line : String) : Option String :=
  match Text.wordsOf line with
  | keyword :: name :: _ => if keyword = Keyword.input.name then some name else none
  | _ => none

/-- A line asks for the name of an input and for no other. -/
theorem Surroundings.execute_prompt_eq {π φ : Type} (w : Surroundings π φ) (before : Scene π φ)
    (line : String) :
    (w.execute before line).1.prompt =
      match askedFor? line with
      | some name => (w.ask before.prompt name).1
      | none => before.prompt := by
  rw [execute_prompt, askedFor?]
  cases Text.wordsOf line with
  | nil => rfl
  | cons first args =>
    cases args with
    | nil =>
      split
      · rename_i said
        cases said
      · rfl
    | cons name more =>
      by_cases input : first = Keyword.input.name
      · subst input
        rw [Keyword.heading?_cons]
        simp
      · have other : Keyword.heading? (first :: name :: more) ≠ some .input := by
          intro heads
          exact input (Option.some.inj (Keyword.heading?_eq_some_iff.mp heads))
        simp only [if_neg input]
        split
        · exact absurd ‹_› other
        · rfl

namespace Surroundings

variable {φ : Type} [FileSystem φ]

/-- A script that is asked notes the names for which the lines ask, in their order. -/
theorem run_asked {before : Scene Prompt φ} {s : Script} (given : before.prompt = .script s)
    (lines : List String) :
    ∃ after, (ofSession.run before lines).1.prompt = .script after ∧
      after.asked = s.asked ++ lines.filterMap askedFor? := by
  induction lines generalizing before s with
  | nil => exact ⟨s, given, by simp⟩
  | cons line more ih =>
    have prompt := ofSession.execute_prompt_eq before line
    rw [given] at prompt
    rw [run_cons]
    cases asks : askedFor? line with
    | none =>
      rw [asks] at prompt
      obtain ⟨after, last, asked⟩ := ih prompt
      exact ⟨after, last, by rw [asked, List.filterMap_cons_none asks]⟩
    | some name =>
      rw [asks] at prompt
      obtain ⟨after, last, asked⟩ := ih prompt
      refine ⟨after, last, ?_⟩
      rw [asked, List.filterMap_cons_some asks]
      simp [Script.ask]

/-- **The two prompts are interchangeable.** A session over typed bytes and one with the replies
that the lines of these bytes stand for show the same for every line and reach the same store and
the same files, after any lines. The script notes the names of the inputs in their order, and on
the terminal stands the question for each of them. -/
theorem prompts_interchangeable {input : List UInt8} {replies : List (Option String)}
    (stand : List.Forall₂ Terminal.Replies (Text.segments 10 input) replies) (store : Store)
    (files : φ) (lines : List String) :
    let typed := ofSession.run ⟨store, .terminal { input }, files⟩ lines
    let given := ofSession.run ⟨store, .script { replies }, files⟩ lines
    typed.2 = given.2 ∧ typed.1.store = given.1.store ∧ typed.1.files = given.1.files ∧
      ∃ t s, typed.1.prompt = .terminal t ∧ given.1.prompt = .script s ∧
        s.asked = lines.filterMap askedFor? ∧
        t.transcript = String.join (s.asked.map question) := by
  intro typed given
  have stands : Terminal.StandsFor { input } { replies } :=
    ⟨rfl, (Terminal.forall₂_replies_iff.mp stand).symm, rfl⟩
  have start : Alike Prompt.StandsFor (φ := φ) ⟨store, .terminal { input }, files⟩
      ⟨store, .script { replies }, files⟩ := ⟨rfl, rfl, stands⟩
  obtain ⟨last, notes⟩ :=
    start.run (w := ofSession) (fun _ _ related name => related.ask name) lines
  have unasked : (⟨store, .script { replies }, files⟩ : Scene Prompt φ).prompt =
      .script { replies } := rfl
  obtain ⟨s, script, asked⟩ := run_asked unasked lines
  refine ⟨notes, last.store, last.files, ?_⟩
  have prompts := last.prompt
  rw [script] at prompts
  cases typing : typed.1.prompt with
  | script other =>
    rw [typing] at prompts
    exact prompts.elim
  | terminal t =>
    rw [typing] at prompts
    exact ⟨t, s, rfl, script, asked, Terminal.StandsFor.transcript_eq prompts⟩

/-- An undecodable line cancels one question, a blank one and one without line feed are replies, and
the end of the input cancels all further questions; asking to leave does not end the session. -/
theorem prompts_interchangeable_spoiled :
    let input : List UInt8 := [55, 13, 13, 10, 255, 10, 10, 46, 53]
    let lines := ["input n", "input m", "print n", "input", "exit", " input m x", "input n",
      "input k"]
    let typed := ofSession.run ⟨{}, .terminal { input }, ({} : Files)⟩ lines
    List.Forall₂ Terminal.Replies (Text.segments 10 input)
        [some "7", none, some "", some ".5"] ∧
      typed.2.map (·.2) = [some "n = 7", some "Input canceled.", some "7",
        some "Error: input: missing argument <name>", some "Exiting the program.", some "m = ",
        some "n = .5", some "Input canceled."] ∧
      ∃ t, typed.1.prompt = .terminal t ∧ t.transcript = String.join
        (["n", "m", "m", "n", "k"].map question) := by
  intro input lines typed
  have stand : List.Forall₂ Terminal.Replies (Text.segments 10 input)
      [some "7", none, some "", some ".5"] :=
    Terminal.forall₂_replies_iff.mpr (by decide +kernel)
  obtain ⟨notes, -, -, t, s, terminal, -, asked, transcript⟩ :=
    prompts_interchangeable stand {} ({} : Files) lines
  refine ⟨stand, ?_, t, terminal, ?_⟩
  · rw [notes]
    decide +kernel
  · rw [transcript, asked]
    decide +kernel

end Surroundings

end Linewise
