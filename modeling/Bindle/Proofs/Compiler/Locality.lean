import Bindle.Proofs.Compiler.Failure

/-!
# What a compilation depends on

A compilation is a dialogue, so it depends on files by the answers to its questions alone.  The files
may change while they are asked about; so the questions of one run are kept in their order, each with
its answer, and other files agree with the run if they give these answers when they are asked in this
order.

* `Exchange`           a question about files, with its answer;
* `Host.withParser`    the files of a host, with a parser;
* `Host.recorded`      the same, and every exchange is put on record;
* `Host.Gives`         the answers that a host gives to a record of questions;
* `compile_of_gives`   files that agree with a run give the same run.
-/

namespace Bindle

/-- a question about files with the answer to it -/
inductive Exchange where
  | isFile (p : Path) (answer : Bool)
  | text (p : Path) (answer : Except FileError String)

def Exchange.path : Exchange → Path
  | isFile p _ => p
  | text p _ => p

/-- what is put on record of a question and its answer; sources are no files -/
def Exchange.ofAnswer : (q : Question) → q.Answer → List Exchange
  | .isFile p, answer => [.isFile p answer]
  | .text p, answer => [.text p answer]
  | .parse _, _ => []

namespace Host

variable {α β γ : Type}

/-- the files of a host, with a parser -/
def withParser (h : Host (StateM α)) (parser : Parser) : Host (StateM α) :=
  { h with parse := fun source s => (parser source, s) }

/-- an action on the files under a record, which gets what `told` makes of its value -/
def recording (told : γ → List Exchange) (act : StateM α γ) : StateM (α × List Exchange) γ :=
  fun s => ((act s.1).1, (act s.1).2, s.2 ++ told (act s.1).1)

/-- the files of a host, with a parser and a record of the questions -/
def recorded (h : Host (StateM α)) (parser : Parser) : Host (StateM (α × List Exchange)) where
  isFile p := recording (fun answer => [.isFile p answer]) (h.isFile p)
  isDir p := recording (fun _ => []) (h.isDir p)
  read p := recording (fun content => [.text p (content.bind (Content.textAt p))]) (h.read p)
  write p content := recording (fun _ => []) (h.write p content)
  createDirs p := recording (fun _ => []) (h.createDirs p)
  parse source := fun s => (parser source, s)

/-- asked the questions of a record in their order, the host gives the answers on record -/
inductive Gives (h : Host (StateM α)) : α → List Exchange → Prop where
  | nil {s : α} : Gives h s []
  | isFile {s : α} {p : Path} {es : List Exchange} (hothers : Gives h (h.isFile p s).2 es) :
      Gives h s (.isFile p (h.isFile p s).1 :: es)
  | text {s : α} {p : Path} {es : List Exchange} (hothers : Gives h (h.readText p s).2 es) :
      Gives h s (.text p (h.readText p s).1 :: es)

theorem gives_isFile {h : Host (StateM α)} {s : α} {p : Path} {answer : Bool}
    {es : List Exchange} : h.Gives s (.isFile p answer :: es) ↔
      (h.isFile p s).1 = answer ∧ h.Gives (h.isFile p s).2 es := by
  constructor
  · intro hgives
    cases hgives with
    | isFile hothers => exact ⟨rfl, hothers⟩
  · rintro ⟨rfl, hothers⟩
    exact .isFile hothers

theorem gives_text {h : Host (StateM α)} {s : α} {p : Path} {answer : Except FileError String}
    {es : List Exchange} : h.Gives s (.text p answer :: es) ↔
      (h.readText p s).1 = answer ∧ h.Gives (h.readText p s).2 es := by
  constructor
  · intro hgives
    cases hgives with
    | text hothers => exact ⟨rfl, hothers⟩
  · rintro ⟨rfl, hothers⟩
    exact .text hothers

instance decidableGives (h : Host (StateM α)) : ∀ s es, Decidable (h.Gives s es)
  | _, [] => .isTrue .nil
  | s, .isFile p _ :: es =>
    have := h.decidableGives (h.isFile p s).2 es
    decidable_of_iff _ gives_isFile.symm
  | s, .text p _ :: es =>
    have := h.decidableGives (h.readText p s).2 es
    decidable_of_iff _ gives_text.symm

/-! ## one question -/

section

variable (a : Host (StateM α)) (b : Host (StateM β)) (parser : Parser)

theorem answer_recorded (q : Question) (s : α) (record : List Exchange) :
    (a.recorded parser).answer q (s, record) =
      (((a.withParser parser).answer q s).1, ((a.withParser parser).answer q s).2,
        record ++ Exchange.ofAnswer q ((a.withParser parser).answer q s).1) := by
  cases q with
  | isFile p => rfl
  | text p => rfl
  | parse source =>
    show (parser source, s, record) = (parser source, s, record ++ [])
    rw [List.append_nil]

/-- a host that gives what is on record of a question answers it like the first host -/
theorem gives_ofAnswer {q : Question} {s : α} {t : β} {es : List Exchange}
    (h : b.Gives t (Exchange.ofAnswer q ((a.withParser parser).answer q s).1 ++ es)) :
    ((b.withParser parser).answer q t).1 = ((a.withParser parser).answer q s).1 ∧
      b.Gives ((b.withParser parser).answer q t).2 es := by
  cases q with
  | isFile p => exact gives_isFile.mp h
  | text p => exact gives_text.mp h
  | parse source => exact ⟨rfl, h⟩

/-! ## dialogues -/

/-- everything that a dialogue puts on record -/
def record : Dialogue γ → α → List Exchange
  | .done _, _ => []
  | .ask q next, s =>
    let r := (a.withParser parser).answer q s
    Exchange.ofAnswer q r.1 ++ record (next r.1) r.2

theorem ask_recorded (d : Dialogue γ) (s : α) (before : List Exchange) :
    (a.recorded parser).ask d (s, before) =
      (((a.withParser parser).ask d s).1, ((a.withParser parser).ask d s).2,
        before ++ a.record parser d s) := by
  induction d generalizing s before with
  | done c =>
    show (c, s, before) = (c, s, before ++ [])
    rw [List.append_nil]
  | ask q next ih =>
    show ((a.recorded parser).answer q >>= fun x => (a.recorded parser).ask (next x)) (s, before) = _
    rw [state_bind (a.answer_recorded parser q s before), ih, List.append_assoc]
    rfl

/-- **A dialogue depends on the answers alone.** -/
theorem ask_of_gives (d : Dialogue γ) {s : α} {t : β} (h : b.Gives t (a.record parser d s)) :
    b.record parser d t = a.record parser d s ∧
      ((b.withParser parser).ask d t).1 = ((a.withParser parser).ask d s).1 := by
  induction d generalizing s t with
  | done c => exact ⟨rfl, rfl⟩
  | ask q next ih =>
    obtain ⟨hanswer, hothers⟩ := a.gives_ofAnswer b parser h
    have hnext := ih ((a.withParser parser).answer q s).1 hothers
    show Exchange.ofAnswer q ((b.withParser parser).answer q t).1 ++
        b.record parser (next ((b.withParser parser).answer q t).1) _ = _ ∧
      ((b.withParser parser).ask (next ((b.withParser parser).answer q t).1) _).1 = _
    rw [hanswer]
    exact ⟨congrArg _ hnext.1, hnext.2⟩

end

end Host

/-! ## files in memory -/

namespace Memory

variable {γ : Type} {parser : Parser} {m m' : Memory}

/-- what is asked about is the same file, or none, among other files -/
def AgreesOn (m m' : Memory) (es : List Exchange) : Prop :=
  ∀ e ∈ es, m'.files.get? (key e.path) = m.files.get? (key e.path)

instance (es : List Exchange) : Decidable (m.AgreesOn m' es) :=
  inferInstanceAs (Decidable (∀ e ∈ es, m'.files.get? (key e.path) = m.files.get? (key e.path)))

theorem withParser_host : (Memory.host parser).withParser parser = Memory.host parser := by
  unfold Memory.host Host.withParser
  dsimp only

theorem answer_of_agreesOn {q : Question}
    (h : AgreesOn m m' (Exchange.ofAnswer q (m.answer parser q))) :
    m'.answer parser q = m.answer parser q := by
  cases q with
  | isFile p =>
    have hp : m'.files.get? (key p) = m.files.get? (key p) :=
      h (.isFile p (m.isFile p)) (List.mem_singleton_self _)
    show m'.isFile p = m.isFile p
    unfold isFile Table.contains
    rw [hp]
  | text p =>
    have hp : m'.files.get? (key p) = m.files.get? (key p) :=
      h (.text p (m.readText p)) (List.mem_singleton_self _)
    show m'.readText p = m.readText p
    unfold readText read
    rw [hp]
  | parse source => rfl

/-- files in memory stay as they are when they are asked about -/
theorem record_ask (q : Question) (next : q.Answer → Dialogue γ) :
    (Memory.host parser).record parser (.ask q next) m =
      Exchange.ofAnswer q (m.answer parser q) ++
        (Memory.host parser).record parser (next (m.answer parser q)) m := by
  rw [Host.record, withParser_host, answer_host]

theorem gives_append {q : Question} {es : List Exchange}
    (hq : m'.answer parser q = m.answer parser q) (h : (Memory.host parser).Gives m' es) :
    (Memory.host parser).Gives m' (Exchange.ofAnswer q (m.answer parser q) ++ es) := by
  cases q with
  | isFile p => exact Host.gives_isFile.mpr ⟨hq, h⟩
  | text p => exact Host.gives_text.mpr ⟨hq, h⟩
  | parse source => exact h

/-- so it is enough that they agree on the files that a dialogue asks about -/
theorem gives_of_agreesOn {d : Dialogue γ}
    (h : AgreesOn m m' ((Memory.host parser).record parser d m)) :
    (Memory.host parser).Gives m' ((Memory.host parser).record parser d m) := by
  induction d with
  | done c => exact .nil
  | ask q next ih =>
    rw [record_ask] at h ⊢
    have hq := answer_of_agreesOn fun e he => h e (List.mem_append_left _ he)
    exact gives_append hq (ih _ fun e he => h e (List.mem_append_right _ he))

end Memory

/-! ## compilations -/

namespace Compiler

variable {σ α β : Type}

theorem record_compile (c : Compiler σ) (parser : Parser) (h : Host (StateM α)) (s : α) :
    (c.compile (h.recorded parser) (s, [])).2.2 =
      h.record parser (compilation c.options ModuleGraph.capacity) s := by
  rw [compile_of_ask (h.ask_recorded parser _ s [])]
  rfl

/-- **A compilation depends on nothing but the answers to its questions.**  Files that give the
answers on record are asked the same, and the same comes of it; of files in memory, those that were
not asked about do not count. -/
theorem compile_of_gives (c : Compiler σ) (parser : Parser) :
    (∀ (a : Host (StateM α)) (b : Host (StateM β)) (s : α) (t : β),
      b.Gives t (c.compile (a.recorded parser) (s, [])).2.2 →
        (c.compile (b.recorded parser) (t, [])).2.2 =
            (c.compile (a.recorded parser) (s, [])).2.2 ∧
          (c.compile (b.withParser parser) t).1 = (c.compile (a.withParser parser) s).1) ∧
      ∀ m m' : Memory,
        m.AgreesOn m' (c.compile ((Memory.host parser).recorded parser) (m, [])).2.2 →
          (c.compile ((Memory.host parser).recorded parser) (m', [])).2.2 =
              (c.compile ((Memory.host parser).recorded parser) (m, [])).2.2 ∧
            c.compile (Memory.host parser) m' = ((c.compile (Memory.host parser) m).1, m') := by
  constructor
  · intro a b s t h
    simp only [record_compile] at h ⊢
    obtain ⟨hrecord, hresult⟩ := a.ask_of_gives b parser _ h
    refine ⟨hrecord, ?_⟩
    cases ha : (a.withParser parser).ask (compilation c.options ModuleGraph.capacity) s with
    | mk result s' =>
      cases hb : (b.withParser parser).ask (compilation c.options ModuleGraph.capacity) t with
      | mk result' t' =>
        rw [ha, hb] at hresult
        obtain rfl : result' = result := hresult
        rw [compile_of_ask ha, compile_of_ask hb]
  · intro m m' h
    simp only [record_compile] at h ⊢
    obtain ⟨hrecord, hresult⟩ :=
      (Memory.host parser).ask_of_gives (Memory.host parser) parser _ (Memory.gives_of_agreesOn h)
    rw [Memory.withParser_host, Memory.ask_host, Memory.ask_host] at hresult
    refine ⟨hrecord, ?_⟩
    rw [compile_of_ask (Memory.ask_host m parser _), compile_of_ask (Memory.ask_host m' parser _)]
    dsimp only at hresult ⊢
    rw [hresult]

def pair : Memory :=
  .ofList [(⟨"/p/a.js"⟩, .text "require('./b')"), (⟨"/p/b.js"⟩, .text "")]

def pairOnDisk : Disk where
  root := .directory [("p", .directory
    [("a.js", .file (.text "require('./b')")), ("b.js", .file (.text ""))])]

def ofPair : Compiler Unit := .ofOptions ((Options.new ⟨"/p"⟩).entry "a" "./a")

def pairRebuilt : Memory := pair.store ⟨"/p/dist/a.js"⟩ (.text "old")

/-- it does not count that the files are on a disk, nor that an earlier output lies beside them -/
theorem compile_pair :
    (ofPair.compile ((Disk.host Script.parser).withParser Script.parser) pairOnDisk).1 =
        (ofPair.compile ((Memory.host Script.parser).withParser Script.parser) pair).1 ∧
      ofPair.compile (Memory.host Script.parser) pairRebuilt =
        ((ofPair.compile (Memory.host Script.parser) pair).1, pairRebuilt) := by
  have hdisk : (Disk.host Script.parser).Gives pairOnDisk
      (ofPair.compile ((Memory.host Script.parser).recorded Script.parser) (pair, [])).2.2 := by
    decide +kernel
  have hrebuilt : pair.AgreesOn pairRebuilt
      (ofPair.compile ((Memory.host Script.parser).recorded Script.parser) (pair, [])).2.2 := by
    decide +kernel
  obtain ⟨hfiles, hmemory⟩ := compile_of_gives (α := Memory) (β := Disk) ofPair Script.parser
  exact ⟨(hfiles _ _ pair pairOnDisk hdisk).2, (hmemory pair pairRebuilt hrebuilt).2⟩

end Compiler

end Bindle
