import HookRelay.BuildCommand
import HookRelay.Proofs.AmbientHook
import HookRelay.Proofs.WordPlaces

/-!
# Reports of builds

Whether a report is about a build is decided by two counts.  What the counts stand for is a place:
the action `build` has to be named somewhere else than at the end of the name of the tool.  Seen in
this way it is clear that a report that goes on stays a report of a build, which a comparison of two
growing counts does not show.

* `BuildCommand.StandsAlone`: the action is named at a position, and not as the end of the tool.
* `isXcodeBuild_iff`: the counts say that there is such a position, and that the tool is named.
* `isBuild_iff`: which reports are about a build, by places alone.
* `isBuild_append`: they still are if they go on.
* `Hook.written_run_postBuild`: what the hook prints, by the part of its input that it captures.
* `Hook.reminds_of_builds_alone`: it never reminds of a build that its whole input does not report.
-/

namespace HookRelay
namespace BuildCommand

/-- The action stands at the position, and not as the end of the tool. -/
def StandsAlone (position : Nat) (report : Bytes) : Prop :=
  Bytes.StandsAt build position report ∧
    ∀ start, start + 5 = position → ¬ Bytes.StandsAt xcodebuild start report

theorem xcodebuild_eq : xcodebuild = Bytes.ofText "xcode" ++ build := by
  decide

theorem unbordered_xcodebuild : Bytes.Unbordered xcodebuild := by
  decide

theorem unbordered_build : Bytes.Unbordered build := by
  decide

theorem xcodebuild_ne_nil : xcodebuild ≠ [] := by
  decide

theorem build_ne_nil : build ≠ [] := by
  decide

section Places

variable {report : Bytes}

/-- Where the tool stands, the action stands as its end. -/
theorem standsAt_build_of_xcodebuild
    {start : Nat} (stands : Bytes.StandsAt xcodebuild start report) :
    Bytes.StandsAt build (start + 5) report := by
  rw [xcodebuild_eq] at stands
  exact stands.append_right

/-- The positions at which the action stands as the end of the tool. -/
def toolEnds (report : Bytes) : Finset Nat :=
  (Bytes.places xcodebuild report).map (addRightEmbedding 5)

theorem mem_toolEnds_iff {position : Nat} :
    position ∈ toolEnds report ↔
      ∃ start, start + 5 = position ∧ Bytes.StandsAt xcodebuild start report := by
  simp only [toolEnds, Finset.mem_map, Bytes.mem_places_iff xcodebuild_ne_nil,
    addRightEmbedding_apply]
  exact exists_congr fun start => And.comm

theorem toolEnds_subset_places : toolEnds report ⊆ Bytes.places build report := by
  intro position mem
  obtain ⟨start, rfl, stands⟩ := mem_toolEnds_iff.mp mem
  exact (Bytes.mem_places_iff build_ne_nil).mpr (standsAt_build_of_xcodebuild stands)

theorem standsAlone_iff {position : Nat} :
    StandsAlone position report ↔
      position ∈ Bytes.places build report ∧ position ∉ toolEnds report := by
  simp only [StandsAlone, Bytes.mem_places_iff build_ne_nil, mem_toolEnds_iff, not_exists, not_and]

/-- There are as many ends of the tool as there are places of it.  So there are more places of the
action than of the tool exactly if the action stands alone at one of them. -/
theorem countWord_lt_iff :
    Bytes.countWord xcodebuild report < Bytes.countWord build report ↔
      ∃ position, StandsAlone position report := by
  have ends : Bytes.countWord xcodebuild report = (toolEnds report).card := by
    rw [Bytes.countWord_eq_card_places unbordered_xcodebuild, toolEnds, Finset.card_map]
  rw [ends, Bytes.countWord_eq_card_places unbordered_build]
  constructor
  · intro more
    obtain ⟨position, mem, alone⟩ := Finset.exists_mem_notMem_of_card_lt_card more
    exact ⟨position, standsAlone_iff.mpr ⟨mem, alone⟩⟩
  · rintro ⟨position, alone⟩
    obtain ⟨mem, other⟩ := standsAlone_iff.mp alone
    exact Finset.card_lt_card ⟨toolEnds_subset_places, fun all => other (all mem)⟩

theorem isXcodeBuild_iff :
    isXcodeBuild report = true ↔
      xcodebuild <:+: report ∧ ∃ position, StandsAlone position report := by
  rw [isXcodeBuild, Bool.and_eq_true, decide_eq_true_iff, decide_eq_true_iff, countWord_lt_iff,
    Bytes.countWord_pos_iff xcodebuild_ne_nil unbordered_xcodebuild]

/-- Whether the action stands alone at a position does not depend on what follows it. -/
theorem StandsAlone.append
    {position : Nat} (alone : StandsAlone position report) (more : Bytes) :
    StandsAlone position (report ++ more) := by
  obtain ⟨stands, notTool⟩ := alone
  have inside := stands.add_length_le build_ne_nil
  refine ⟨(Bytes.standsAt_append_iff inside).mpr stands, ?_⟩
  -- A tool that ends where the action does lies within the report as well.
  intro start same tool
  have size : xcodebuild.length = 5 + build.length := by decide
  exact notTool start same ((Bytes.standsAt_append_iff (by omega)).mp tool)

theorem isXcodeBuild_append (h : isXcodeBuild report = true) (more : Bytes) :
    isXcodeBuild (report ++ more) = true := by
  obtain ⟨named, position, alone⟩ := isXcodeBuild_iff.mp h
  exact isXcodeBuild_iff.mpr
    ⟨named.trans (List.prefix_append report more).isInfix, position, alone.append more⟩

/-- A report that is about a build still is if it goes on. -/
theorem isBuild_append (h : isBuild report = true) (more : Bytes) :
    isBuild (report ++ more) = true := by
  rw [isBuild, Bool.or_eq_true] at h ⊢
  rcases h with tool | named
  · exact Or.inl (isXcodeBuild_append tool more)
  · obtain ⟨words, mem, occurs⟩ := List.any_eq_true.mp named
    refine Or.inr (List.any_eq_true.mpr ⟨words, mem, ?_⟩)
    rw [Bytes.occurs_iff] at occurs ⊢
    exact occurs.trans (List.prefix_append report more).isInfix

end Places

/-- One of the three invocations occurs in the report, or the tool `xcodebuild` does and its action
`build` stands somewhere else than at the end of the tool. -/
theorem isBuild_iff (report : Bytes) :
    isBuild report = true ↔
      (Bytes.ofText "cargo build" <:+: report ∨
        Bytes.ofText "swift build" <:+: report ∨
        Bytes.ofText "swiftc " <:+: report) ∨
      (Bytes.ofText "xcodebuild" <:+: report ∧
        ∃ position,
          Bytes.StandsAt (Bytes.ofText "build") position report ∧
            ∀ start, start + 5 = position →
              ¬ Bytes.StandsAt (Bytes.ofText "xcodebuild") start report) := by
  have named :
      invocations.any (fun words => words.occurs report) = true ↔
        Bytes.ofText "cargo build" <:+: report ∨
          Bytes.ofText "swift build" <:+: report ∨
          Bytes.ofText "swiftc " <:+: report := by
    simp [invocations, Bytes.occurs_iff]
  rw [isBuild, Bool.or_eq_true, named, isXcodeBuild_iff, or_comm]
  rfl

/-- What stands in front of a report is another matter: it may make a tool of the action. -/
example :
    isBuild (Bytes.ofText "build xcodebuild") = true ∧
      isBuild (Bytes.ofText "xcode" ++ Bytes.ofText "build xcodebuild") = false := by
  decide

end BuildCommand

theorem Answer.buildReminder_ne_nil : Answer.buildReminder ≠ [] := by
  rw [Answer.buildReminder, Ne, Bytes.ofText_eq_nil_iff, String.append_eq_empty_iff]
  exact fun empty => absurd empty.2 (by decide)

namespace Hook

section Reminder

variable (config : Config) (source : Source) (world : World)

/-- Only a report of a build makes the hook do anything, since an empty input is none. -/
theorem respondPostBuild_eq :
    respondPostBuild source world =
      if BuildCommand.isBuild (captured source) = true then
        ⟨[Answer.buildReminder], (source.capture Buffer.input).2,
          world.log (inputNote "post_build.hit" (captured source).length)⟩
      else
        ⟨[], (source.capture Buffer.input).2, world⟩ := by
  by_cases empty : captured source = []
  · have no : BuildCommand.isBuild [] = false := by decide
    simp [respondPostBuild, Buffer.isEmpty, content_capture_input, empty, no]
  · by_cases found : BuildCommand.isBuild (captured source) = true
    · simp [respondPostBuild, Buffer.isEmpty, Buffer.length, content_capture_input, empty, found]
    · simp [respondPostBuild, Buffer.isEmpty, content_capture_input, empty, found]

theorem pieces_respondPostBuild :
    (respondPostBuild source world).pieces =
      if BuildCommand.isBuild (captured source) = true then [Answer.buildReminder] else [] := by
  rw [respondPostBuild_eq]
  split <;> rfl

/-- The reminder is printed whole or not at all, as the captured part of the input decides. -/
theorem written_run_postBuild (sink : Sink) (willing : sink.Willing) :
    (run .postBuild config source sink world).sink.written =
      if BuildCommand.isBuild (captured source) = true then
        sink.written ++ Answer.buildReminder
      else
        sink.written := by
  rw [written_run config source sink world .postBuild willing, respond, pieces_respondPostBuild]
  split <;> simp

/-- What is cut off from the input does not make it a report of a build. -/
theorem isBuild_delivered_of_captured (h : BuildCommand.isBuild (captured source) = true) :
    BuildCommand.isBuild (Source.delivered source.script) = true := by
  have whole := BuildCommand.isBuild_append h
    ((Source.delivered source.script).drop (Buffer.inputCapacity - 1))
  rwa [captured, List.take_append_drop] at whole

end Reminder

/-- A report of a build still is one if it goes on; so the hook never reminds of a build that its
whole input does not report, and reminds of every build that is reported within what it captures. -/
theorem reminds_of_builds_alone :
    (∀ report more : Bytes,
      BuildCommand.isBuild report = true → BuildCommand.isBuild (report ++ more) = true) ∧
    ∀ (config : Config) (source : Source) (sink : Sink) (world : World), sink.Willing →
      let printed := (run .postBuild config source sink world).sink.written
      let report := Source.delivered source.script
      (printed ≠ sink.written →
        printed = sink.written ++ Answer.buildReminder ∧ BuildCommand.isBuild report = true) ∧
      (report.length ≤ Buffer.inputCapacity - 1 → BuildCommand.isBuild report = true →
        printed = sink.written ++ Answer.buildReminder) := by
  refine ⟨fun report more h => BuildCommand.isBuild_append h more, ?_⟩
  intro config source sink world willing printed report
  have law : printed = _ := written_run_postBuild config source world sink willing
  refine ⟨?_, ?_⟩
  · intro some
    by_cases found : BuildCommand.isBuild (captured source) = true
    · rw [if_pos found] at law
      exact ⟨law, isBuild_delivered_of_captured source found⟩
    · rw [if_neg found] at law
      exact absurd law some
  · intro fits found
    have whole : captured source = report := List.take_of_length_le fits
    rw [whole, if_pos found] at law
    exact law

/-- The tool and its action, each of them cut by the end of a read. -/
theorem reminds_of_builds_alone_split :
    let source :=
      Source.ofScript
        [.data (Bytes.ofText "xcode"), .failure (.plain .interrupted),
          .data (Bytes.ofText "build clean b"), .data (Bytes.ofText "uild")]
    let sink := Sink.ofScript [.accept 3] none
    let world := Relay.served ⟨[], []⟩
    let finish := run .postBuild Relay.home source sink world
    let report := Bytes.ofText "xcodebuild clean build"
    finish.sink.written = sink.written ++ Answer.buildReminder ∧
      BuildCommand.isBuild (Source.delivered source.script) = true ∧
      BuildCommand.isBuild (report ++ report) = true := by
  intro source sink world finish report
  obtain ⟨grows, law⟩ := reminds_of_builds_alone
  obtain ⟨only, always⟩ := law Relay.home source sink world (by decide)
  have printed : finish.sink.written = sink.written ++ Answer.buildReminder :=
    always (by decide) (by decide)
  have some : finish.sink.written ≠ sink.written := by
    rw [printed, Ne, List.append_right_eq_self]
    exact Answer.buildReminder_ne_nil
  exact ⟨printed, (only some).2, grows report report (by decide)⟩

end Hook
end HookRelay
