import Bearer.Command.Run
import Bearer.Proofs.Backend.Choices
import Bearer.Proofs.Text.Utf8

/-! What the parts of the program do to a run. -/

namespace Bearer.Command

variable {α β : Type} {place : Place} {sink : Log.Sink} {line : Text} {d d' : Deeds}

theorem run_bind_of_ok {p : Program α} {a : α} (hRun : p.run d = .ok a d') (f : α → Program β) :
    (p >>= f).run d = (f a).run d' := by
  show EStateM.bind p f d = _
  rw [EStateM.bind, show p d = .ok a d' from hRun]
  rfl

theorem run_bind_of_error {p : Program α} {failure : Failure} (hRun : p.run d = .error failure d')
    (f : α → Program β) : (p >>= f).run d = .error failure d' := by
  show EStateM.bind p f d = _
  rw [EStateM.bind, show p d = .error failure d' from hRun]

/-- What stands behind a block is done however the block ends, and does not change how it ends. -/
theorem run_finally {block : Program α} {exit : Program Unit} {d'' : Deeds} :
    (∀ a, block.run d = .ok a d' → exit.run d' = .ok () d'' → (tryFinally block exit).run d = .ok a d'') ∧
      ∀ failure, block.run d = .error failure d' → exit.run d' = .ok () d'' →
        (tryFinally block exit).run d = .error failure d'' := by
  constructor
  all_goals
    intro outcome hBlock hExit
    show (Functor.map Prod.fst (tryFinally' block fun _ => exit)) d = _
    simp only [Functor.map, EStateM.map, tryFinally', show block d = _ from hBlock, show exit d' = _ from hExit]

/-- Standard output takes a line. -/
def Place.Prints (place : Place) (line : Text) : Prop := place.strict = true → line.IsScalar

theorem say_of_prints (hPrints : place.Prints line) (d : Deeds) :
    (say place line).run d = .ok () { d with pieces := d.pieces ++ [.out (line ++ ("\n" : Text))] } := by
  unfold say
  split
  · next fault hStrict hFault =>
      obtain ⟨bytes, hBytes⟩ := Utf8.encode_of_isScalar (hPrints hStrict)
      rw [hFault] at hBytes
      contradiction
  · rfl

/-- The error of a line that standard output refuses. -/
def unprintable (fault : EncodeFault) : Report := .foreign "UnicodeEncodeError" fault.message

theorem say_of_refused (hStrict : place.strict = true) {fault : EncodeFault} (hFault : Utf8.encode line = .error fault)
    (d : Deeds) : (say place line).run d = .error (.failed (unprintable fault)) d := by
  rw [say, hStrict, hFault]
  rfl

theorem prints_or_refuses (place : Place) (line : Text) :
    place.Prints line ∨ place.strict = true ∧ ∃ fault, Utf8.encode line = .error fault := by
  cases hStrict : place.strict with
  | false => exact .inl fun h => by rw [hStrict] at h; contradiction
  | true =>
      cases hEncode : Utf8.encode line with
      | ok bytes => exact .inl fun _ => (Utf8.encode_eq_ok_iff.mp hEncode).1
      | error fault => exact .inr ⟨rfl, fault, rfl⟩

theorem not_prints (hStrict : place.strict = true) {fault : EncodeFault} (hFault : Utf8.encode line = .error fault) :
    ¬place.Prints line := by
  intro hPrints
  obtain ⟨bytes, hBytes⟩ := Utf8.encode_of_isScalar (hPrints hStrict)
  rw [hFault] at hBytes
  contradiction

theorem run_build_of_site (place : Place) (sink : Log.Sink) (builder : Builder Unit) (d : Deeds) :
    (build place sink builder).run d = match Site.build { builder, clients := d.clients } with
      | .error e site => .error (.failed e.report) { d with clients := site.clients }
      | .ok b site => .ok b { d with
          pieces := d.pieces ++ (opened place sink b ++ write sink .debug (b.built place.now))
          clients := site.clients } := by
  unfold build
  rw [run_bind_of_ok (show (get : Program Deeds).run d = .ok d d from rfl)]
  cases Site.build { builder, clients := d.clients } <;> rfl

theorem run_build (place : Place) (sink : Log.Sink) (builder : Builder Unit) (d : Deeds) :
    (build place sink builder).run d = match builder.build with
      | .error e => .error (.failed e.report) d
      | .ok b => .ok b { d with
          pieces := d.pieces ++ (opened place sink b ++ write sink .debug (b.built place.now))
          clients := d.clients ++ b.transport.created } := by
  rw [run_build_of_site, Site.build_eq, Builder.build_eq]
  cases builder.credential.resolve with
  | error e => rfl
  | ok credential => rfl

theorem run_close (place : Place) (sink : Log.Sink) (b : Backend Unit) (d : Deeds) :
    (close place sink b).run d = .ok () { d with
      pieces := d.pieces ++ writeLines place sink place.closing
      closed := d.closed ++ [b.close.transport] } := rfl

end Bearer.Command
