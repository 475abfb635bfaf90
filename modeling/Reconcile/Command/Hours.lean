import Reconcile.Command.Response
import Reconcile.Hours.Schedule

namespace Reconcile.Command

def expandHours (text : String) (serializer : Serializer := .json) : Response :=
  match Hours.parseSchedule text with
  | .ok records =>
    match serializer.value (Hours.scheduleValue records) with
    | .ok payload => { exit := .success, payload }
    | .error cause => .internalError (Hours.ExpansionError.serialize cause).message
  | .error cause => .inputError cause.message

end Reconcile.Command
