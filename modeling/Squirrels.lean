import Squirrels.Lib.Act
import Squirrels.Lib.Chain
import Squirrels.Lib.Store
import Squirrels.Vm.Access
import Squirrels.Vm.Api
import Squirrels.Vm.Call
import Squirrels.Vm.Class
import Squirrels.Vm.Contract
import Squirrels.Vm.Heap
import Squirrels.Vm.Object
import Squirrels.Vm.State
import Squirrels.Vm.Table
import Squirrels.Vm.AccessContract
import Squirrels.Vm.ApiContract
import Squirrels.Binding.Object
import Squirrels.Binding.Convert
import Squirrels.Binding.Slots
import Squirrels.Binding.Table
import Squirrels.Binding.Array
import Squirrels.Binding.Closure
import Squirrels.Binding.Class
import Squirrels.Binding.Squirrel
import Squirrels.Binding.Contract
import Squirrels.Binding.ConvertContract
import Squirrels.Binding.SlotsContract
import Squirrels.Binding.TableContract
import Squirrels.Binding.ClassContract
import Squirrels.Binding.ArrayContract
import Squirrels.Binding.CallContract
import Squirrels.Binding.Operation
import Squirrels.Binding.OperationContract
import Squirrels.Binding.Session
import Squirrels.Binding.StackDiscipline
import Squirrels.Vm.Open
import Squirrels.Binding.Capacity
import Squirrels.Binding.References
import Squirrels.Vm.Exact
import Squirrels.Binding.Exact
import Squirrels.Binding.ArrayModel
import Squirrels.Binding.RoundTrip
import Squirrels.Binding.ArrayIteration
import Squirrels.Binding.Registries
import Squirrels.Vm.TableExact
import Squirrels.Binding.TableUpdate
import Squirrels.Binding.TableSet
import Squirrels.Binding.TableIteration
import Squirrels.Binding.InstanceAccess
import Squirrels.Binding.RootTable
import Squirrels.Binding.TypeSafety
import Squirrels.Binding.ForeignHandles
import Squirrels.Binding.StringHash
import Squirrels.Binding.PrintShim
import Squirrels.Binding.CompileErrors
import Squirrels.Binding.DelegateLookup
import Squirrels.Binding.Removal
import Squirrels.Binding.PrintCallbacks
import Squirrels.Binding.Payload
import Squirrels.Binding.DirectCalls
import Squirrels.Vm.ReferenceCounts
import Squirrels.Binding.StringInterning
import Squirrels.Vm.TableModel
import Squirrels.Vm.ClosureStreamLaws
import Squirrels.Vm.CollectorLaws
import Squirrels.Vm.OutersLaws
import Squirrels.Vm.SortLaws
import Squirrels.Vm.TrapsLaws
import Squirrels.Vm.LineInfos
