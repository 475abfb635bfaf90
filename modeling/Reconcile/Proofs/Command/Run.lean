import Reconcile.Command.Run
import Reconcile.Proofs.Conclusion
import Reconcile.Proofs.Fallible

namespace Reconcile

namespace Command

namespace RunOptions

variable (options : RunOptions) (files : Files)

def engine : Engine where
  mappings := options.mappings
  policy := options.policy

end RunOptions

section

variable {options : RunOptions} {files : Files} {cause : ReadError} {request : Request}
variable {serializer : Serializer}

end

section

variable (options : RunOptions) (files : Files)

end

end Command

end Reconcile
