import LineShell.Child
import LineShell.Proofs.DescriptorTable

/-!
# The descriptors of a child

What `Child.setUp` makes of the descriptors a child is born with. Read `Arranged` first: it says
what 0 and 1 refer to, and that every other descriptor is closed if the child was given it and
untouched otherwise. `set_up_law` shows that every child is arranged so before it becomes its
program, whatever files its stage opens and whatever free numbers they get, or else fails at the
first file that cannot be opened.

A new descriptor gets the lowest free number. As nothing depends on that, a child is looked at under
any choice of free numbers (`setUpBy`).
-/

namespace LineShell

/-- Descriptors from 2 on are not the standard input. -/
theorem Descriptor.ne_stdin_of_two_le {d : Descriptor} (h : 2 ≤ d) : d ≠ .stdin := by
  rintro rfl
  exact absurd h (by decide)

/-- Descriptors from 2 on are not the standard output. -/
theorem Descriptor.ne_stdout_of_two_le {d : Descriptor} (h : 2 ≤ d) : d ≠ .stdout := by
  rintro rfl
  exact absurd h (by decide)

namespace Child

/-- The descriptors `after` are those of a child that had the descriptors `before`, the pipe ends
`ends` of its own and the pipe ends `siblings` of others. Where its stage names a file, opening that
file gave the channel. -/
structure Arranged (stage : PreparedStage) (ends : StageEnds) (siblings : List Descriptor)
    (inputChannel outputChannel : Channel) (before after : Table) : Prop where
  stdin : after.get? .stdin =
    if stage.input.isSome then some inputChannel
    else before.get? (ends.input.getD .stdin)
  stdout : after.get? .stdout =
    if stage.output.isSome then some outputChannel
    else before.get? (ends.output.getD .stdout)
  others : ∀ d, 2 ≤ d → after.get? d =
    if d ∈ ends.toList ++ siblings then none else before.get? d

/-- A choice of the number of a new descriptor: any that is not in use. -/
structure Numbering where
  next : Table → Descriptor
  next_not_mem_used : ∀ table : Table, next table ∉ table.used

/-- The choice of the lowest number. -/
def Numbering.lowest : Numbering :=
  ⟨Table.lowestFree, Table.lowest_free_not_mem_used⟩

variable {τ : Type} {numbering : Numbering} {opener : Opener τ} {stage : PreparedStage}
  {ends : StageEnds} {siblings : List Descriptor} {before after : Table} {state state' : τ}
  {name : Text}

/-! ## Opening files -/

/-- All that is opened has a property. -/
structure Opener.OpensOnly (opener : Opener τ) (p : Channel → Prop) : Prop where
  input : ∀ state table path channel, (opener.openInput state table path).1 = .ok channel → p channel
  output : ∀ state table path append channel,
    (opener.openOutput state table path append).1 = .ok channel → p channel

/-- What stands in for a stream: a file, opened in the table under a new descriptor, where the stage
names one, and the pipe end otherwise. -/
inductive Source (numbering : Numbering) (openFile : Text → Except SystemError Channel × τ)
    (before : Table) (state : τ) (pipeEnd : Option Descriptor) :
    Option Text → Channel → Option Descriptor → Table → τ → Prop where
  | file {path : Text} {channel : Channel} {state' : τ} : openFile path = (.ok channel, state') →
      Source numbering openFile before state pipeEnd (some path) channel
        (some (numbering.next before)) (before.withSlots [(numbering.next before, channel)]) state'
  | pipeEnd (channel : Channel) :
      Source numbering openFile before state pipeEnd none channel pipeEnd before state

/-- What opening the file of a stream does: `openInput` and `openOutput` differ only in the file,
the pipe end and the way of opening. -/
def openStream (numbering : Numbering) (openFile : Text → Except SystemError Channel × τ)
    (pipeEnd : Option Descriptor) (redirect : Option Text) (table : Table) (state : τ) :
    Except Failure (Option Descriptor × Table) × τ :=
  match redirect with
  | none => (.ok (pipeEnd, table), state)
  | some path =>
    match openFile path with
    | (.error cause, state) => (.error ⟨path, cause, redirectFailed⟩, state)
    | (.ok channel, state) =>
      let d := numbering.next table
      (.ok (some d, table.withSlots [(d, channel)]), state)

/-- Opening the input is opening a stream for reading. -/
theorem open_input_eq (opener : Opener τ) (stage : PreparedStage) (ends : StageEnds)
    (table : Table) (state : τ) : openInput opener stage ends table state =
      openStream .lowest (opener.openInput state table) ends.input stage.input table state := by
  unfold openInput openStream
  cases stage.input <;> rfl

/-- Opening the output is opening a stream for writing, which may be appended to. -/
theorem open_output_eq (opener : Opener τ) (stage : PreparedStage) (ends : StageEnds)
    (table : Table) (state : τ) : openOutput opener stage ends table state =
      openStream .lowest (fun path => opener.openOutput state table path stage.append) ends.output
        stage.output table state := by
  unfold openOutput openStream
  cases stage.output <;> rfl

/-- Either something stands in for a stream, or the file that the stage names cannot be opened. -/
theorem source_or_open_fails (numbering : Numbering)
    (openFile : Text → Except SystemError Channel × τ) (pipeEnd : Option Descriptor)
    (redirect : Option Text) (before : Table) (state : τ) :
    (∃ channel source after state',
      Source numbering openFile before state pipeEnd redirect channel source after state' ∧
      openStream numbering openFile pipeEnd redirect before state = (.ok (source, after), state')) ∨
    ∃ path cause state', redirect = some path ∧ openFile path = (.error cause, state') ∧
      openStream numbering openFile pipeEnd redirect before state =
        (.error ⟨path, cause, redirectFailed⟩, state') := by
  cases redirect with
  | none => exact .inl ⟨.file 0, _, _, _, .pipeEnd (.file 0), rfl⟩
  | some path =>
      cases hopen : openFile path with
      | mk opened state' =>
          cases opened with
          | error cause => exact .inr ⟨path, cause, state', rfl, hopen, by rw [openStream, hopen]⟩
          | ok channel => exact .inl ⟨channel, _, _, state', .file hopen, by rw [openStream, hopen]⟩

namespace Source

variable {openFile : Text → Except SystemError Channel × τ} {pipeEnd source : Option Descriptor}
  {redirect : Option Text} {channel : Channel}

/-- Opening a file closes nothing. -/
theorem used_subset
    (h : Source numbering openFile before state pipeEnd redirect channel source after state') :
    ∀ d ∈ before.used, d ∈ after.used := by
  cases h with
  | file hopen => intro d hd; simp [Table.used_with_slots, hd]
  | pipeEnd => exact fun _ hd => hd

/-- A descriptor that was in use refers to what it referred to before. -/
theorem get?_of_mem_used
    (h : Source numbering openFile before state pipeEnd redirect channel source after state')
    {d : Descriptor} (hd : d ∈ before.used) : after.get? d = before.get? d := by
  cases h with
  | file hopen =>
      have hnew := numbering.next_not_mem_used before
      have hne : d ≠ numbering.next before := fun heq => hnew (heq ▸ hd)
      rw [Table.get?_with_slot hnew, if_neg hne]
  | pipeEnd => rfl

/-- A descriptor that does not stand in for the stream refers to what it referred to before. -/
theorem get?_of_ne
    (h : Source numbering openFile before state pipeEnd redirect channel source after state')
    {d : Descriptor} (hd : d ∉ source) : after.get? d = before.get? d := by
  cases h with
  | file hopen =>
      have hne : d ≠ numbering.next before := fun heq => hd (by simp [heq])
      rw [Table.get?_with_slot (numbering.next_not_mem_used before), if_neg hne]
  | pipeEnd => rfl

/-- What the stream will refer to. -/
theorem get?_source
    (h : Source numbering openFile before state pipeEnd redirect channel source after state')
    (stream : Descriptor) : after.get? (source.getD stream) =
      if redirect.isSome then some channel else before.get? (pipeEnd.getD stream) := by
  cases h with
  | file hopen => simp [Table.get?_with_slot (numbering.next_not_mem_used before)]
  | pipeEnd => simp

/-- Where the stage names a file, the stream will refer to something that was opened. -/
theorem opened
    (h : Source numbering openFile before state pipeEnd redirect channel source after state')
    {p : Channel → Prop} (hopens : ∀ path opened, (openFile path).1 = .ok opened → p opened)
    (hfile : redirect.isSome) : p channel := by
  cases h with
  | file hopen => exact hopens _ _ (by rw [hopen])
  | pipeEnd => cases hfile

/-- What stands in for a stream is neither 0, 1 nor 2. -/
theorem gt_two
    (h : Source numbering openFile before state pipeEnd redirect channel source after state')
    (hstandard : before.Standard) (hpipe : ∀ d ∈ pipeEnd, 2 < d) : ∀ d ∈ source, 2 < d := by
  cases h with
  | file hopen =>
      intro d hd
      cases hd
      exact hstandard.gt_two (numbering.next_not_mem_used before)
  | pipeEnd => exact hpipe

/-- What stands in for a stream is in use. -/
theorem get_d_mem_used
    (h : Source numbering openFile before state pipeEnd redirect channel source after state')
    {stream : Descriptor} (hstream : stream ∈ before.used)
    (hpipe : ∀ d ∈ pipeEnd, d ∈ before.used) : source.getD stream ∈ after.used := by
  cases h with
  | file hopen => simp [Table.used_with_slots]
  | pipeEnd =>
      cases pipeEnd with
      | none => exact hstream
      | some d => exact hpipe d rfl

/-- What stands in for a stream is the pipe end or was not in use. -/
theorem mem_pipe_end_or_new
    (h : Source numbering openFile before state pipeEnd redirect channel source after state')
    {d : Descriptor} (hd : d ∈ source) : d ∈ pipeEnd ∨ d ∉ before.used := by
  cases h with
  | file hopen =>
      cases hd
      exact .inr (numbering.next_not_mem_used before)
  | pipeEnd => exact .inl hd

end Source

/-! ## Rearranging -/

/-- Attaching a source to a stream changes what the stream refers to, and nothing else. -/
theorem get?_attach {source : Option Descriptor} {target : Descriptor}
    (h : attach name source target before = .ok after) (d : Descriptor) :
    after.get? d = if d = target then before.get? (source.getD target) else before.get? d := by
  cases source with
  | none =>
      cases h
      by_cases hd : d = target <;> simp [hd]
  | some source =>
      simp only [attach] at h
      split at h
      · rename_i hduplicate
        cases h
        simpa using Table.get?_duplicate hduplicate d
      · cases h

/-- A descriptor that is in use can take the place of a stream. -/
theorem exists_attach {source : Option Descriptor} {target : Descriptor}
    (h : source.getD target ∈ before.used) (name : Text) :
    ∃ after, attach name source target before = .ok after := by
  cases source with
  | none => exact ⟨before, rfl⟩
  | some source =>
      have hsource : source ∈ before.used := h
      obtain ⟨after, hduplicate⟩ := Table.exists_duplicate hsource target
      exact ⟨after, by rw [attach, hduplicate]⟩

/-- What `arrange` makes of 0, 1 and all other descriptors, if what stands in for 1 is not 0. -/
theorem exists_arrange {input output : Option Descriptor} (hinput : input.getD .stdin ∈ before.used)
    (houtput : output.getD .stdout ∈ before.used) (hgt : ∀ d ∈ output, 2 < d) (name : Text)
    (given : List Descriptor) : ∃ after, arrange name input output given before = .ok after ∧
      after.get? .stdin = before.get? (input.getD .stdin) ∧
      after.get? .stdout = before.get? (output.getD .stdout) ∧
      ∀ d, 2 ≤ d → after.get? d = if d ∈ given then none else before.get? d := by
  have hne : output.getD .stdout ≠ .stdin := by
    cases output with
    | none => simp
    | some d => exact Descriptor.ne_stdin_of_two_le (hgt d rfl).le
  obtain ⟨first, hfirst⟩ := exists_attach hinput name
  -- What stands in for 1 is still there after the first step, which changes 0 only.
  have hkept : output.getD .stdout ∈ first.used := by
    by_contra hnone
    rw [← Table.get?_eq_none_iff, get?_attach hfirst, if_neg hne, Table.get?_eq_none_iff] at hnone
    exact hnone houtput
  obtain ⟨second, hsecond⟩ := exists_attach hkept name
  refine ⟨_, by simp only [arrange, hfirst, hsecond, bind, Except.bind, pure, Except.pure]; rfl,
    ?_, ?_, ?_⟩
  · rw [Table.get?_close_all, if_neg (by simp), get?_attach hsecond, if_neg (by simp),
      get?_attach hfirst, if_pos rfl]
  · rw [Table.get?_close_all, if_neg (by simp), get?_attach hsecond, if_pos rfl,
      get?_attach hfirst, if_neg hne]
  · intro d hd
    have h0 := Descriptor.ne_stdin_of_two_le hd
    have h1 := Descriptor.ne_stdout_of_two_le hd
    rw [Table.get?_close_all, get?_attach hsecond, if_neg h1, get?_attach hfirst, if_neg h0]
    simp [h0, h1]

/-! ## The whole set-up -/

/-- Setting up a child whose new descriptors are numbered in the given way. -/
def setUpBy (numbering : Numbering) (opener : Opener τ) (stage : PreparedStage) (ends : StageEnds)
    (siblings : List Descriptor) (table : Table) (state : τ) : Except Failure Table × τ :=
  match openStream numbering (opener.openInput state table) ends.input stage.input table state with
  | (.error failure, state) => (.error failure, state)
  | (.ok (input, table), state) =>
    match openStream numbering (fun path => opener.openOutput state table path stage.append)
      ends.output stage.output table state with
    | (.error failure, state) => (.error failure, state)
    | (.ok (output, table), state) =>
      let given := ends.toList ++ input.toList ++ output.toList ++ siblings
      (arrange stage.name input output given table, state)

/-- The set-up of a child is the one that gives new descriptors the lowest numbers. -/
theorem set_up_eq (opener : Opener τ) (stage : PreparedStage) (ends : StageEnds)
    (siblings : List Descriptor) (table : Table) (state : τ) :
    setUp opener stage ends siblings table state =
      setUpBy .lowest opener stage ends siblings table state := by
  unfold setUp setUpBy
  rewrite [open_input_eq]
  generalize openStream .lowest (opener.openInput state table) ends.input stage.input table state =
    first
  obtain ⟨failure | ⟨input, opened⟩, state₁⟩ := first
  · rfl
  · dsimp only
    rewrite [open_output_eq]
    rfl

/-- What setting up a child comes to, and the state that it leaves. -/
inductive Outcome (numbering : Numbering) (opener : Opener τ) (stage : PreparedStage)
    (ends : StageEnds) (siblings : List Descriptor) (table : Table) (state : τ) :
    Except Failure Table × τ → Prop where
  /-- The input file cannot be opened, and nothing else is tried. -/
  | inputFails {path : Text} {cause : SystemError} {state' : τ} : stage.input = some path →
      opener.openInput state table path = (.error cause, state') →
      Outcome numbering opener stage ends siblings table state (.error ⟨path, cause, 1⟩, state')
  /-- The output file cannot be opened. -/
  | outputFails {inputChannel : Channel} {input : Option Descriptor} {opened : Table} {state₁ : τ}
      {path : Text} {cause : SystemError} {state' : τ} :
      Source numbering (opener.openInput state table) table state ends.input stage.input inputChannel
        input opened state₁ →
      stage.output = some path →
      opener.openOutput state₁ opened path stage.append = (.error cause, state') →
      Outcome numbering opener stage ends siblings table state (.error ⟨path, cause, 1⟩, state')
  /-- The child becomes its program, and of what it was given and opened nothing is left open. -/
  | ready {inputChannel outputChannel : Channel} {input output : Option Descriptor}
      {opened full after : Table} {state₁ state₂ : τ} :
      Source numbering (opener.openInput state table) table state ends.input stage.input inputChannel
        input opened state₁ →
      Source numbering (fun path => opener.openOutput state₁ opened path stage.append) opened state₁
        ends.output stage.output outputChannel output full state₂ →
      Arranged stage ends siblings inputChannel outputChannel table after →
      (∀ d ∈ ends.toList ++ input.toList ++ output.toList ++ siblings, d ∉ after.used) →
      Outcome numbering opener stage ends siblings table state (.ok after, state₂)

section Given

variable {openInput openOutput : Text → Except SystemError Channel × τ}
  {inputChannel outputChannel : Channel}
  {input output : Option Descriptor} {opened full : Table} {state₁ state₂ : τ}

/-- Of the descriptors from 2 on, closing all that the child was given and opened leaves those that
it was not given, as they were. -/
theorem get?_of_closed
    (hin : Source numbering openInput before state ends.input stage.input inputChannel input opened
      state₁)
    (hout : Source numbering openOutput opened state₁ ends.output stage.output outputChannel output
      full state₂) (d : Descriptor) :
    (if d ∈ ends.toList ++ input.toList ++ output.toList ++ siblings then none else full.get? d) =
      if d ∈ ends.toList ++ siblings then none else before.get? d := by
  by_cases hgiven : d ∈ ends.toList ++ siblings
  · have hmem : d ∈ ends.toList ++ input.toList ++ output.toList ++ siblings := by
      simp only [List.mem_append] at hgiven ⊢
      tauto
    rw [if_pos hmem, if_pos hgiven]
  have hinputEnd : d ∉ ends.input := fun hd =>
    hgiven (by simp [StageEnds.toList, Option.mem_def.mp hd])
  have houtputEnd : d ∉ ends.output := fun hd =>
    hgiven (by simp [StageEnds.toList, Option.mem_def.mp hd])
  rw [if_neg hgiven]
  -- What was not given but is closed was opened, so it was not in use before.
  by_cases hinput : d ∈ input
  · have hnew : d ∉ before.used := (hin.mem_pipe_end_or_new hinput).resolve_left hinputEnd
    rw [if_pos (by simp [Option.mem_def.mp hinput]), Table.get?_eq_none_iff.mpr hnew]
  by_cases houtput : d ∈ output
  · have hnew : d ∉ opened.used := (hout.mem_pipe_end_or_new houtput).resolve_left houtputEnd
    have hnew' : d ∉ before.used := fun hmem => hnew (hin.used_subset d hmem)
    rw [if_pos (by simp [Option.mem_def.mp houtput]), Table.get?_eq_none_iff.mpr hnew']
  have hnot : d ∉ ends.toList ++ input.toList ++ output.toList ++ siblings := by
    simp only [List.mem_append, Option.mem_toList, not_or] at hgiven ⊢
    exact ⟨⟨⟨hgiven.1, hinput⟩, houtput⟩, hgiven.2⟩
  rw [if_neg hnot, hout.get?_of_ne houtput, hin.get?_of_ne hinput]

/-- Once the files are open nothing can fail, and the descriptors come to be arranged. -/
theorem exists_arranged (hstandard : before.Standard)
    (hopen : ∀ d ∈ ends.toList ++ siblings, d ∈ before.used)
    (hends : ∀ d ∈ ends.toList ++ siblings, 2 < d)
    (hin : Source numbering openInput before state ends.input stage.input inputChannel input opened
      state₁)
    (hout : Source numbering openOutput opened state₁ ends.output stage.output outputChannel output
      full state₂) (name : Text) :
    ∃ after, arrange name input output
        (ends.toList ++ input.toList ++ output.toList ++ siblings) full = .ok after ∧
      Arranged stage ends siblings inputChannel outputChannel before after ∧
      ∀ d ∈ ends.toList ++ input.toList ++ output.toList ++ siblings, d ∉ after.used := by
  have hinputEnd : ∀ d ∈ ends.input, d ∈ ends.toList ++ siblings := fun d hd => by
    simp [StageEnds.toList, Option.mem_def.mp hd]
  have houtputEnd : ∀ d ∈ ends.output, d ∈ ends.toList ++ siblings := fun d hd => by
    simp [StageEnds.toList, Option.mem_def.mp hd]
  have hstandard' : opened.Standard := hstandard.mono hin.used_subset
  have hinputGt : ∀ d ∈ input, 2 < d := hin.gt_two hstandard fun d hd => hends d (hinputEnd d hd)
  have houtputGt : ∀ d ∈ output, 2 < d :=
    hout.gt_two hstandard' fun d hd => hends d (houtputEnd d hd)
  have hinputUsed : input.getD .stdin ∈ opened.used :=
    hin.get_d_mem_used hstandard.stdin fun d hd => hopen d (hinputEnd d hd)
  have houtputUsed : output.getD .stdout ∈ full.used :=
    hout.get_d_mem_used hstandard'.stdout fun d hd => hin.used_subset d (hopen d (houtputEnd d hd))
  obtain ⟨after, harrange, hstdin, hstdout, hrest⟩ := exists_arrange
    (hout.used_subset _ hinputUsed) houtputUsed houtputGt name
    (ends.toList ++ input.toList ++ output.toList ++ siblings)
  refine ⟨after, harrange, ⟨?_, ?_, ?_⟩, ?_⟩
  · -- The output file cannot take the place of what stands in for 0, which is in use.
    rw [hstdin, hout.get?_of_mem_used hinputUsed, hin.get?_source]
  · have hused : ends.output.getD .stdout ∈ before.used := by
      cases hend : ends.output with
      | none => exact hstandard.stdout
      | some d => exact hopen d (houtputEnd d hend)
    rw [hstdout, hout.get?_source, hin.get?_of_mem_used hused]
  · intro d hd
    rw [hrest d hd, get?_of_closed hin hout]
  · intro d hd
    have hgt : 2 < d := by
      simp only [List.mem_append, Option.mem_toList] at hd
      rcases hd with ((hd | hd) | hd) | hd
      · exact hends d (List.mem_append_left _ hd)
      · exact hinputGt d hd
      · exact houtputGt d hd
      · exact hends d (List.mem_append_right _ hd)
    rw [← Table.get?_eq_none_iff, hrest d hgt.le, if_pos hd]

end Given

/-- The set-up of a child has one of its three outcomes, whatever numbers new descriptors are given:
either file may fail to open, and once both are open nothing else does. -/
theorem set_up_by_outcome (numbering : Numbering) (opener : Opener τ) (stage : PreparedStage)
    (state : τ) (hstandard : before.Standard)
    (hopen : ∀ d ∈ ends.toList ++ siblings, d ∈ before.used)
    (hends : ∀ d ∈ ends.toList ++ siblings, 2 < d) :
    Outcome numbering opener stage ends siblings before state
      (setUpBy numbering opener stage ends siblings before state) := by
  unfold setUpBy
  rcases source_or_open_fails numbering (opener.openInput state before) ends.input stage.input before
    state with
    ⟨inputChannel, input, opened, state₁, hin, heq⟩ | ⟨path, cause, state', hpath, hfails, heq⟩
  · rw [heq]
    dsimp only
    rcases source_or_open_fails numbering
      (fun path => opener.openOutput state₁ opened path stage.append) ends.output stage.output opened
      state₁ with
      ⟨outputChannel, output, full, state₂, hout, heq'⟩ | ⟨path, cause, state', hpath, hfails, heq'⟩
    · obtain ⟨after, harrange, harranged, hclosed⟩ :=
        exists_arranged hstandard hopen hends hin hout stage.name
      rw [heq']
      dsimp only
      rw [harrange]
      exact .ready hin hout harranged hclosed
    · rw [heq']
      exact .outputFails hin hpath hfails
  · rw [heq]
    exact .inputFails hpath hfails

/-- A child that gets as far as its program has its descriptors arranged, with the files that its
stage names open. -/
theorem set_up_arranged (hstandard : before.Standard)
    (hopen : ∀ d ∈ ends.toList ++ siblings, d ∈ before.used)
    (hends : ∀ d ∈ ends.toList ++ siblings, 2 < d) {p : Channel → Prop}
    (hopens : opener.OpensOnly p)
    (h : (setUp opener stage ends siblings before state).1 = .ok after) :
    ∃ inputChannel outputChannel,
      Arranged stage ends siblings inputChannel outputChannel before after ∧
      (stage.input.isSome → p inputChannel) ∧ (stage.output.isSome → p outputChannel) := by
  have houtcome := set_up_by_outcome .lowest opener stage state hstandard hopen hends
  rw [← set_up_eq] at houtcome
  generalize setUp opener stage ends siblings before state = result at h houtcome
  cases houtcome with
  | inputFails => cases h
  | outputFails => cases h
  | ready hin hout harranged _ =>
      cases h
      exact ⟨_, _, harranged, hin.opened fun path channel => hopens.input _ _ path channel,
        hout.opened fun path channel => hopens.output _ _ path _ channel⟩

/-- Setting up a child fails only at a file that its stage names and that cannot be opened, and then
the child exits with 1; if this is the input file it makes no difference what opening the output
file would do. Otherwise the child becomes its program, with its descriptors arranged and everything
closed that it was given or opened. This is so for every choice of free numbers, and for the lowest
ones as for any other. -/
theorem set_up_law (numbering : Numbering) (opener : Opener τ) (stage : PreparedStage) (state : τ)
    (hstandard : before.Standard) (hopen : ∀ d ∈ ends.toList ++ siblings, d ∈ before.used)
    (hends : ∀ d ∈ ends.toList ++ siblings, 2 < d) :
    Outcome numbering opener stage ends siblings before state
      (setUpBy numbering opener stage ends siblings before state) ∧
    setUp opener stage ends siblings before state =
      setUpBy .lowest opener stage ends siblings before state ∧
    ∀ path cause state', stage.input = some path →
      opener.openInput state before path = (.error cause, state') → ∀ openOutput,
        setUpBy numbering { opener with openOutput } stage ends siblings before state =
          (.error ⟨path, cause, 1⟩, state') := by
  refine ⟨set_up_by_outcome numbering opener stage state hstandard hopen hends,
    set_up_eq opener stage ends siblings before state, ?_⟩
  intro path cause state' hpath hfails openOutput
  rw [setUpBy, hpath, openStream, hfails]
  rfl

/-- A stage in the middle of a pipeline reads a file. With 3 and 6 free the file is 3 for a while;
if it cannot be opened, the output file is left alone. -/
theorem set_up_law_in_mid_pipeline :
    let opener : Opener (List Text) :=
      { openInput := fun state _ path =>
          if path = ['x'] then (.error .noEntry, state) else (.ok (.file state.length), state ++ [path])
        openOutput := fun state _ path _ => (.ok (.file state.length), state ++ [path]) }
    let table : Table := ⟨[(0, .file 9), (1, .file 9), (2, .file 8), (4, .pipeReader 0),
      (5, .pipeWriter 1), (7, .pipeReader 1), (8, .file 7)], none⟩
    let ends : StageEnds := ⟨some 4, some 5⟩
    let stage : PreparedStage := ⟨['c'], ['/', 'c'], [['c']], some ['i'], none, false⟩
    let failing : PreparedStage := { stage with input := some ['x'], output := some ['o'] }
    (table.Standard ∧ (∀ d ∈ ends.toList ++ [7], d ∈ table.used) ∧
      ∀ d ∈ ends.toList ++ [7], 2 < d) ∧
    Outcome .lowest opener stage ends [7] table [] (setUp opener stage ends [7] table []) ∧
    setUp opener stage ends [7] table [] =
      (.ok ⟨[(2, .file 8), (8, .file 7), (0, .file 0), (1, .pipeWriter 1)], none⟩, [['i']]) ∧
    setUpBy .lowest opener failing ends [7] table [] = (.error ⟨['x'], .noEntry, 1⟩, []) := by
  intro opener table ends stage failing
  have hstandard : table.Standard := ⟨by decide, by decide, by decide⟩
  have hopen : ∀ d ∈ ends.toList ++ [7], d ∈ table.used := by decide
  have hends : ∀ d ∈ ends.toList ++ [7], 2 < d := by decide
  obtain ⟨houtcome, heq, _⟩ := set_up_law .lowest opener stage [] hstandard hopen hends
  obtain ⟨_, _, hfails⟩ := set_up_law .lowest opener failing [] hstandard hopen hends
  refine ⟨⟨hstandard, hopen, hends⟩, ?_, by decide +kernel, ?_⟩
  · rw [heq]
    exact houtcome
  · exact hfails ['x'] .noEntry [] rfl rfl opener.openOutput

end Child

end LineShell
